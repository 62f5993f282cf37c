import HeapBridge.Fault
import HeapBridge.Settings

/-!
# Building settings

Settings are built in turns. In every turn some entries are applied to what the turns before have
built, and the outcome tells what became of these entries alone.
-/
namespace HeapBridge.Settings

/-- What there is before the first turn. -/
def Outcome.initial : Outcome := ⟨defaults, true, []⟩

/-- Applies the entries of a turn. Tells whether all of them were taken. -/
def apply (entries : Settings → Outcome) : Act Outcome Bool := do
  modify fun o => entries o.settings
  Act.view Outcome.taken

/-- Sets one option. -/
def applyEntry (name value : String) : Act Outcome Bool := apply (·.set name value)

/-- Applies a command line, which has to be taken as a whole. -/
def applyLine (line : String) : Act Outcome Bool := do
  unless ← apply (·.applyCommandLine line) do throw (.badOptions line)
  return true

/-- Applies the variables of an environment. -/
def applyVariables (sets : List (String × String)) : Act Outcome Unit :=
  discard (apply (·.applyEnvironment (environmentOf sets)))

/-- Starts again from the defaults and the variables of an environment. -/
def startOver (sets : List (String × String)) : Act Outcome Unit :=
  discard (apply fun _ => defaults.applyEnvironment (environmentOf sets))

end HeapBridge.Settings
