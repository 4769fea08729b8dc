/- # Faults

Everything that can go wrong, by cause.  `Fault.message` holds the wording of all of them and
`Fault.severity` says which ones a caller may ignore: only a setting that cannot be used.

A setting that can not be read is quoted in the wording as it was given, spaces included.
-/

namespace LoopPlumbing

/-- Why a feature setting cannot be used. -/
inductive SettingFault where
  /-- The text is not a sign, a name and an optional list of parameters. -/
  | notASetting (input : String)
  /-- What stands between the parentheses is not a list of parameters. -/
  | malformedParameters (input : String)
  /-- No feature has the name. -/
  | unknownFeature (name : String)
  /-- A parameter that should be `true` or `false` is neither. -/
  | notATruthValue (key value : String)
  /-- A feature refuses its setting for a reason of its own. -/
  | refused (reason : String)
deriving DecidableEq

/-- The wording of a reason. -/
def SettingFault.message : SettingFault → String
  | notASetting input => "'" ++ input ++ "' is not of the form +NAME(key[value])"
  | malformedParameters input => "'" ++ input ++ "' has malformed parameters"
  | unknownFeature name => "no feature named " ++ name
  | notATruthValue key value =>
    "parameter " ++ key ++ " expects true or false, got '" ++ value ++ "'"
  | refused reason => reason

/-- Why a pattern, a candidate or a setting is rejected. -/
inductive Fault where
  /-- A pattern reads a slot that no earlier token is sure to have bound. -/
  | unboundSlot (slot : String)
  /-- The body of a repetition can match nothing. -/
  | emptyRepetition
  /-- A candidate names a method that the class lacks. -/
  | unknownMethod (className method : String)
  /-- A candidate points past the end of its method. -/
  | instructionOutOfRange (method : String) (index length : Nat)
  /-- Candidates arrive while no class is in progress. -/
  | noClassInProgress
  /-- A feature setting cannot be used. -/
  | invalidSetting (cause : SettingFault)
deriving DecidableEq

/-! ### Severity -/

/-- Whether a caller may go on after a fault. -/
inductive Severity where
  | fatal
  | recoverable
deriving DecidableEq

/-- The name of a severity in texts. -/
def Severity.text : Severity → String
  | fatal => "Fatal"
  | recoverable => "Recoverable"

namespace Fault

/-- The name of the kind of fault. -/
def kind : Fault → String
  | unboundSlot _ => "UnboundSlot"
  | emptyRepetition => "EmptyRepetition"
  | unknownMethod _ _ => "UnknownMethod"
  | instructionOutOfRange _ _ _ => "InstructionOutOfRange"
  | noClassInProgress => "NoClassInProgress"
  | invalidSetting _ => "InvalidFeature"

/-- The wording of a fault. -/
def message : Fault → String
  | unboundSlot slot => "Slot '" ++ slot ++ "' is read before it is written"
  | emptyRepetition => "Repeated sub-query can match without consuming input"
  | unknownMethod className method => "Unknown method " ++ method ++ " in class " ++ className
  | instructionOutOfRange method index length =>
    "Instruction " ++ toString index ++ " out of range for method " ++ method ++
      " (" ++ toString length ++ " instructions)"
  | noClassInProgress => "No class is being processed; call begin() first"
  | invalidSetting cause => "Invalid feature setting: " ++ cause.message

/-- A setting may be left out; everything else ends the work. -/
def severity : Fault → Severity
  | invalidSetting _ => .recoverable
  | _ => .fatal

/-- **Only a setting that cannot be used may be ignored.** -/
theorem severity_eq_recoverable_iff (f : Fault) :
    f.severity = .recoverable ↔ ∃ cause, f = .invalidSetting cause := by
  cases f <;> simp [severity]

end Fault
end LoopPlumbing
