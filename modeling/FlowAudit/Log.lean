/-!
Progress messages. A computation that reports progress carries its messages beside its outcome, so
that the messages of a failed computation are kept and never influence a result.
-/
namespace FlowAudit

/-- How much detail a message belongs to. -/
inductive Level
  | normal
  | verbose
  | debug
  deriving DecidableEq, Repr

/-- The level reached by repeating the verbosity flag. -/
def Level.ofCount : Nat → Level
  | 0 => normal
  | 1 => verbose
  | _ => debug

/-- Position of a level in the order of increasing detail. -/
def Level.rank : Level → Nat
  | normal => 0
  | verbose => 1
  | debug => 2

def Level.name : Level → String
  | normal => "Normal"
  | verbose => "Verbose"
  | debug => "Debug"

/-- One message. -/
structure LogEntry where
  level : Level
  message : String
  deriving DecidableEq, Repr

/-- Messages in the order in which they were reported. -/
abbrev Log := List LogEntry

/-- The messages shown at a level. -/
def Log.shownAt (log : Log) (level : Level) : Log :=
  log.filter fun entry => decide (entry.level.rank ≤ level.rank)

/-- Whether a text stands somewhere inside another one. -/
def occursIn (text : List Char) : List Char → Bool
  | [] => text.isEmpty
  | c :: rest => text.isPrefixOf (c :: rest) || occursIn text rest

/-- Whether some text occurs in a message. -/
def Log.mentions (log : Log) (text : String) : Bool :=
  log.any fun entry => occursIn text.toList entry.message.toList

/-- An outcome together with the messages reported on the way. -/
structure Traced (ε α : Type) where
  log : Log
  outcome : Except ε α

namespace Traced

variable {ε δ α β : Type}

/-- A computation without messages. -/
def ofExcept (outcome : Except ε α) : Traced ε α :=
  ⟨[], outcome⟩

/-- Reports one message. -/
def report (level : Level) (message : String) : Traced ε Unit :=
  ⟨[⟨level, message⟩], .ok ()⟩

/-- Goes on with the result and appends the messages; an error ends the computation and keeps the
messages reported before it. -/
def andThen (x : Traced ε α) (f : α → Traced ε β) : Traced ε β :=
  match x.outcome with
  | .ok a => ⟨x.log ++ (f a).log, (f a).outcome⟩
  | .error e => ⟨x.log, .error e⟩

instance : Monad (Traced ε) where
  pure a := ofExcept (.ok a)
  bind := andThen

instance : MonadLift (Except ε) (Traced ε) where
  monadLift := ofExcept

/-- Changes the error. -/
def mapError (f : ε → δ) (x : Traced ε α) : Traced δ α :=
  ⟨x.log, x.outcome.mapError f⟩

@[simp] theorem outcome_pure (a : α) : (pure a : Traced ε α).outcome = .ok a := rfl

@[simp] theorem outcome_ofExcept (x : Except ε α) : (ofExcept x).outcome = x := rfl

@[simp] theorem outcome_lift (x : Except ε α) : (liftM x : Traced ε α).outcome = x := rfl

@[simp] theorem outcome_report (level : Level) (message : String) :
    (report level message : Traced ε Unit).outcome = .ok () := rfl

@[simp] theorem outcome_mapError (f : ε → δ) (x : Traced ε α) :
    (x.mapError f).outcome = x.outcome.mapError f := rfl

/-- Messages never decide how a computation goes on. -/
@[simp] theorem outcome_bind (x : Traced ε α) (f : α → Traced ε β) :
    (x >>= f).outcome = x.outcome >>= fun a => (f a).outcome := by
  change (x.andThen f).outcome = _
  unfold andThen
  cases x.outcome <;> rfl

end Traced

end FlowAudit
