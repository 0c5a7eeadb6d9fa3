import Coinage.Registry.Execute

/-! Runs of messages. A run takes the registry from message to message; what it has answered, in
order, is the history of the registry. -/

namespace Coinage

/-- A message with who sent it. -/
structure Sent where
  sender : String
  message : Submitted Command
deriving DecidableEq, Repr

/-- A message with what it was answered. -/
structure Outcome extends Sent where
  result : Except Fault Receipt

namespace Registry

/-- The registry after a run of messages. -/
def after (r : Registry) : List Sent → Registry
  | [] => r
  | m :: rest => (r.execute m.sender m.message).2.after rest

/-- The answers to a run of messages. -/
def history (r : Registry) : List Sent → List Outcome
  | [] => []
  | m :: rest =>
    ⟨m, (r.execute m.sender m.message).1⟩ :: (r.execute m.sender m.message).2.history rest

theorem after_append (r : Registry) (ms ms' : List Sent) :
    r.after (ms ++ ms') = (r.after ms).after ms' := by
  induction ms generalizing r with
  | nil => rfl
  | cons m rest ih => exact ih _

theorem history_append (r : Registry) (ms ms' : List Sent) :
    r.history (ms ++ ms') = r.history ms ++ (r.after ms).history ms' := by
  induction ms generalizing r with
  | nil => rfl
  | cons m rest ih =>
      simp only [List.cons_append, history, after]
      rw [ih]

theorem after_concat (r : Registry) (ms : List Sent) (m : Sent) :
    r.after (ms ++ [m]) = ((r.after ms).execute m.sender m.message).2 := by
  rw [after_append]
  rfl

theorem history_concat (r : Registry) (ms : List Sent) (m : Sent) :
    r.history (ms ++ [m]) =
      r.history ms ++ [⟨m, ((r.after ms).execute m.sender m.message).1⟩] := by
  rw [history_append]
  rfl

end Registry

end Coinage
