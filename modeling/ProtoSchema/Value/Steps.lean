import ProtoSchema.Value.Misfit
import ProtoSchema.Value

/-! # Changes step by step

A value that changes in steps. A step that fails leaves the value as it was.
-/

namespace ProtoSchema.Steps

variable {σ : Type} (step : Value → σ → Except ReadFault Value)

def advance (v : Value) (s : σ) : Value :=
  match step v s with
  | .ok w => w
  | .error _ => v

/-- What each step answers: the value it leads to, or why it failed. -/
def run (v : Value) : List σ → List (Except ReadFault Value)
  | [] => []
  | s :: ss => step v s :: run (advance step v s) ss

theorem advance_of_error {v : Value} {s : σ} {e : ReadFault} (h : step v s = .error e) :
    advance step v s = v := by
  simp [advance, h]

theorem advance_of_ok {v w : Value} {s : σ} (h : step v s = .ok w) : advance step v s = w := by
  simp [advance, h]

end ProtoSchema.Steps
