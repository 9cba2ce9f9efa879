import ProtoSchema.Catalog.Hdlctrl
import ProtoSchema.Proofs.Value.RoundTrip

/-! # Messages of `hdlctrl.v1`

No message of the package has two parts that share a key, so all of them come back from their texts.
-/

namespace ProtoSchema.Hdlctrl

theorem coherent_catalog : catalog.Coherent := by
  have hapart : ∀ p ∈ catalog.messages, p.2.parts.Pairwise FieldType.Apart := by decide +kernel
  have htypes : ∀ p ∈ catalog.messages, ∀ f ∈ p.2.parts, f.slot.type.Coherent := by decide +kernel
  exact fun p hp => ⟨hapart p hp, htypes p hp⟩

/-- Every message comes back from its text, an absent field as absent and a zero as a zero. Only the
sign of a zero can be lost. -/
theorem decode_encode_message {name : String} {v : Value} (hv : catalog.HasType (.message name) v)
    (hd : (catalog.write (.message name) v).depth ≤ Catalog.maxDepth) :
    ∃ w, catalog.decode (.message name) (catalog.encode (.message name) v) = .ok w ∧
      w.same v = true ∧ (v.NoNegativeZero → w = v) := by
  have ht : (ValueType.message name).Coherent := trivial
  obtain ⟨w, hw, hagree⟩ := Catalog.decode_encode_of_coherent coherent_catalog ht hv hd
  exact ⟨w, hw, hagree.same, hagree.eq⟩

/-- A host that runs elsewhere, with one optional field that is present and empty. -/
def remoteHost : Value :=
  .record [.text "h\"1", .text "", .enum 2, .text "", .int (-9223372036854775808),
    .list [.text "", .text "a"], .int 0, .instant ⟨-1, 999000000⟩,
    .record [.number ⟨false, .finite 12582912 (-23)⟩, .int 0] []]
    [.member "remote" (.record [.text "", .int 0] [])]

theorem readsBack_cpu : (Decimal.Binary.mk false (.finite 12582912 (-23))).ReadsBack .float := by
  have htext : Decimal.Layout.single.text? ⟨false, .finite 12582912 (-23)⟩ = some "1.5".toList := by
    decide +kernel
  have hnumber : Json.Number.ofLiteral? "1.5" =
      some (.double ⟨false, .finite 6755399441055744 (-52)⟩) := by decide +kernel
  have hwrite : Catalog.encode {} (.scalar .float) (.number ⟨false, .finite 12582912 (-23)⟩) =
      (Json.number "1.5").toText := by
    simp [Catalog.encode, Catalog.write, ValueType.leaf, Json.binary, Scalar.layout, htext]
  have hdocument : Json.Document.ofText (Json.number "1.5").toText = ⟨.number "1.5", true⟩ :=
    Json.Document.ofText_toText (show Json.Reader.number? _ = _ by decide)
  have hround : Decimal.Binary.convert .single ⟨false, .finite 6755399441055744 (-52)⟩ =
      ⟨false, .finite 12582912 (-23)⟩ := by decide +kernel
  have hread (inside : Option Interior) :
      (ValueType.scalar .float).readLeaf inside (.number "1.5") =
        .ok (.number ⟨false, .finite 12582912 (-23)⟩) := by
    rw [ValueType.readLeaf_scalar rfl
      (show Json.found (.number "1.5") = _ by rw [Json.found, hnumber])]
    simp [Scalar.ofFound, Found.toBinary, hround, Except.map, Except.mapError]
  obtain ⟨inside, hleaf⟩ := Catalog.read_scalar {} Catalog.maxDepth .streamed .float (.number "1.5")
  rw [Decimal.Binary.ReadsBack, Catalog.decode, Catalog.readText_eq_ok, hwrite, hdocument]
  exact ⟨hleaf.trans (hread inside), rfl⟩

theorem hasType_remoteHost : catalog.HasType Host.type remoteHost := by
  have hresources : catalog.HasType (.message "controller.HeadlessHost.Resources")
      (.record [.number ⟨false, .finite 12582912 (-23)⟩, .int 0] []) :=
    .record rfl (.cons (.one nofun (.leaf (.number readsBack_cpu)))
      (.cons (.one nofun (.leaf (.integer rfl rfl))) .nil)) .nil
  have hremote : catalog.HasType (.message "controller.HeadlessHost.Remote")
      (.record [.text "", .int 0] []) :=
    .record rfl (.cons (.one nofun (.leaf (.text "")))
      (.cons (.one nofun (.leaf (.integer rfl rfl))) .nil)) .nil
  have hstatus : (hostStatus.ofNumber? 2).isSome = true := by decide +kernel
  have hinstant : (Instant.mk (-1) 999000000).InMillis := ⟨by decide, by decide, by decide⟩
  have htags : ∀ v ∈ [Value.text "", .text "a"], catalog.HasType .string v := by
    rintro v hv
    rcases List.mem_pair.1 hv with rfl | rfl <;> exact .leaf (.text _)
  have hfields : List.Forall₂ (fun f v => catalog.HasSlot f.slot v) headlessHost.fields
      [.text "h\"1", .text "", .enum 2, .text "", .int (-9223372036854775808),
        .list [.text "", .text "a"], .int 0, .instant ⟨-1, 999000000⟩,
        .record [.number ⟨false, .finite 12582912 (-23)⟩, .int 0] []] :=
    .cons (.one nofun (.leaf (.text _))) <| .cons (.one nofun (.leaf (.text _))) <|
      .cons (.one nofun (.leaf (.enum hstatus))) <| .cons (.one nofun (.leaf (.text _))) <|
      .cons (.one nofun (.leaf (.integer rfl rfl))) <| .cons (.list rfl htags) <|
      .cons (.one nofun (.leaf (.integer rfl rfl))) <|
      .cons (.one nofun (.leaf (.instant hinstant))) <| .cons (.one nofun hresources) .nil
  exact .record rfl hfields (.cons (.member rfl hremote) .nil)

theorem decode_encode_remoteHost :
    catalog.HasType Host.type remoteHost ∧
      (catalog.write Host.type remoteHost).depth ≤ Catalog.maxDepth ∧
      catalog.decode Host.type (catalog.encode Host.type remoteHost) = .ok remoteHost := by
  have hd : (catalog.write Host.type remoteHost).depth ≤ Catalog.maxDepth := by decide +kernel
  obtain ⟨w, hw, -, heq⟩ := decode_encode_message hasType_remoteHost hd
  have hzero : remoteHost.NoNegativeZero := by
    simp [remoteHost, Value.NoNegativeZero, Value.AllNoNegativeZero]
  rw [heq hzero] at hw
  exact ⟨hasType_remoteHost, hd, hw⟩

end ProtoSchema.Hdlctrl
