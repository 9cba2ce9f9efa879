import ProtoSchema.Value.Misfit

/-! # Members of a oneof

Reads at most one member of a oneof from the entries of an object. Entries with other keys are only
skipped, a second member is an error before its value is looked at.
-/

namespace ProtoSchema.Members

/-- Goes through the entries; `first` is the member met so far, under the key it was met. -/
def readAfter {α : Type} (oneof : String) (accepts : String → Bool)
    (decode : String → Json → Except ReadFault α) (first : Option (String × α)) :
    List (Option String × Json) → Except ReadFault (Option α)
  | [] => .ok (first.map (·.2))
  | (none, _) :: _ => .error .malformed
  | (some key, j) :: rest =>
    if accepts key then
      match first with
      | some (earlier, _) => .error (.misfit (.severalMembers oneof earlier key))
      | none =>
        if j.isBare then .error .malformed
        else do
          let a ← decode key j
          readAfter oneof accepts decode (some (key, a)) rest
    else if j.isWhole then readAfter oneof accepts decode first rest
    else .error .malformed

def read {α : Type} (oneof : String) (accepts : String → Bool)
    (decode : String → Json → Except ReadFault α) (entries : List (Option String × Json)) :
    Except ReadFault (Option α) :=
  readAfter oneof accepts decode none entries

end ProtoSchema.Members
