import JobDispatch.Settings
set_option autoImplicit false

namespace JobDispatch.Background

/-- What a pass of the assignment loop came to: it bound jobs, or it bound none and none waits, or
it bound none although jobs wait, or it failed. -/
inductive PassResult where
  | bound
  | drained
  | stuck
  | failed
deriving DecidableEq, Repr

/-- The pass came to nothing although it should not have. -/
def PassResult.isUnproductive : PassResult → Bool
  | stuck => true
  | failed => true
  | _ => false

/-- The pause before the next pass, and the number of passes that came to nothing since the pause
was last brought back. -/
structure Pacing where
  delayMs : UInt64
  attempts : UInt32
deriving DecidableEq, Repr

namespace Pacing

/-- The pause is the interval. -/
def fresh (intervalMs : UInt64) : Pacing := ⟨intervalMs, 0⟩

def after (settings : Settings) (result : PassResult) (pacing : Pacing) : Pacing :=
  if result.isUnproductive then
    ⟨settings.backoff.delay pacing.attempts, saturatingSucc pacing.attempts⟩
  else fresh settings.assignIntervalMs

/-- The pause after a whole series of passes, starting with the interval. -/
def afterAll (settings : Settings) (results : List PassResult) : Pacing :=
  results.foldl (fun pacing result => pacing.after settings result)
    (fresh settings.assignIntervalMs)

end Pacing

end JobDispatch.Background
