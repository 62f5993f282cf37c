import HeapBridge.Diagnostic
import HeapBridge.Text.Tokens
import HeapBridge.Units

/-!
# Settings

The options of the mutator side. A value is read from text by the rule of its option and replaces
the old one only if it is accepted. Command lines and environments are applied entry by entry: an
entry that is not accepted is reported and changes nothing.
-/
namespace HeapBridge

/-- What a load barrier does with a value that has to be reported. -/
inductive LoadMode
  /-- The value is passed to the collector. -/
  | referenceCall
  /-- The slot is logged as if it were written. -/
  | slotLogging
deriving DecidableEq, Inhabited

namespace LoadMode

def all : List LoadMode := [referenceCall, slotLogging]

def name : LoadMode → String
  | referenceCall => "ReferenceCall"
  | slotLogging => "SlotLogging"

def ofName? (s : String) : Option LoadMode := all.find? fun m => m.name == s

@[simp] theorem ofName?_name (m : LoadMode) : ofName? m.name = some m := by cases m <;> rfl

end LoadMode

namespace Settings

/-- The options. -/
inductive Key
  | barrierFastPath
  | compressedReferences
  | noArrayCopyBarrier
  | loadBarrier
  | loadBarrierMode
  | unknownLoadShortCircuit
  | fastAllocDisabled
  | largeBumpThreshold
  | companionName
deriving DecidableEq, Inhabited

namespace Key

def all : List Key :=
  [barrierFastPath, compressedReferences, noArrayCopyBarrier, loadBarrier, loadBarrierMode,
    unknownLoadShortCircuit, fastAllocDisabled, largeBumpThreshold, companionName]

/-- The name under which an option is set. -/
def name : Key → String
  | barrierFastPath => "barrier_fastpath"
  | compressedReferences => "use_compressed_oops"
  | noArrayCopyBarrier => "field_barrier_no_arraycopy"
  | loadBarrier => "reference_load_barrier"
  | loadBarrierMode => "load_barrier_mode"
  | unknownLoadShortCircuit => "unknown_load_short_circuit"
  | fastAllocDisabled => "disable_fast_alloc"
  | largeBumpThreshold => "large_bump_threshold"
  | companionName => "companion_thread_name"

/-- The type of the values of an option. -/
@[reducible] def Value : Key → Type
  | barrierFastPath | compressedReferences | noArrayCopyBarrier | loadBarrier
  | unknownLoadShortCircuit | fastAllocDisabled => Bool
  | loadBarrierMode => LoadMode
  | largeBumpThreshold => Word
  | companionName => String

/-- The option of a name. -/
def ofName? (s : String) : Option Key := all.find? fun k => k.name == s

@[simp] theorem ofName?_name (k : Key) : ofName? k.name = some k := by cases k <;> rfl

/-- The value of an option that nobody has set. -/
def default : (k : Key) → k.Value
  | barrierFastPath | loadBarrier => true
  | compressedReferences | noArrayCopyBarrier | unknownLoadShortCircuit | fastAllocDisabled =>
    false
  | loadBarrierMode => .referenceCall
  | largeBumpThreshold => Units.defaultLargeBumpThreshold
  | companionName => "MMTk Companion Thread"

end Key

/-- Reads a truth value, in lower case. -/
def readBool? (s : String) : Option Bool :=
  if s = "true" then some true else if s = "false" then some false else none

/-- Reads digits on top of a number, as long as it fits a word. -/
def readDigits? (n : Nat) : List Char → Option Nat
  | [] => some n
  | c :: cs =>
    if c.isDigit then
      let n := n * 10 + (c.toNat - 48)
      if n < UInt64.size then readDigits? n cs else none
    else none

/-- Reads a number: digits, after a plus sign if one is there. -/
def readWord? (s : String) : Option Word :=
  let digits := match s.toList with
    | '+' :: cs => cs
    | cs => cs
  if digits.isEmpty then none else (readDigits? 0 digits).map UInt64.ofNat

/-- Why the text of a value was not accepted. -/
inductive Refusal
  | unreadable
  | invalid
deriving DecidableEq, Inhabited

/-- Reads a value of an option. A thread has to have a name. -/
def Key.read (text : String) : (k : Key) → Except Refusal k.Value
  | barrierFastPath | compressedReferences | noArrayCopyBarrier | loadBarrier
  | unknownLoadShortCircuit | fastAllocDisabled => (readBool? text).elim (.error .unreadable) .ok
  | loadBarrierMode => (LoadMode.ofName? text).elim (.error .unreadable) .ok
  | largeBumpThreshold => (readWord? text).elim (.error .unreadable) .ok
  | companionName => if text.isEmpty then .error .invalid else .ok text

end Settings

/-- A value for every option. -/
structure Settings where
  get : (k : Settings.Key) → k.Value

namespace Settings

/-- No option has been set. -/
def defaults : Settings := ⟨Key.default⟩

instance : Inhabited Settings := ⟨defaults⟩

/-- Replaces the value of one option. -/
def put (s : Settings) (k : Key) (v : k.Value) : Settings :=
  ⟨fun x => if h : x = k then h ▸ v else s.get x⟩

@[simp] theorem get_put_self (s : Settings) (k : Key) (v : k.Value) : (s.put k v).get k = v := by
  simp [put]

@[simp] theorem get_put_of_ne {s : Settings} {k x : Key} {v : k.Value} (h : x ≠ k) :
    (s.put k v).get x = s.get x := by simp [put, h]

/-- What came of one entry: the settings after it, whether it was taken, and what was reported. -/
structure Outcome where
  settings : Settings
  taken : Bool
  reports : List Diagnostic
deriving Inhabited

/-- Sets the option of a name from the text of a value. -/
def set (s : Settings) (name value : String) : Outcome :=
  match Key.ofName? name with
  | none => ⟨s, false, [.unknownOption name]⟩
  | some k =>
    match k.read value with
    | .ok v => ⟨s.put k v, true, []⟩
    | .error .unreadable => ⟨s, false, [.unreadableValue name value]⟩
    | .error .invalid => ⟨s, false, [.invalidValue name value]⟩

/-- Sets an option from a token that gives name and value. -/
def setToken (s : Settings) (token : String) : Outcome :=
  match Text.splitPair? token with
  | some (name, value) => s.set name value
  | none => ⟨s, false, [.notAPair token]⟩

/-- Adds an entry to what came of the entries before it. -/
def Outcome.andThen (o : Outcome) (entry : Settings → Outcome) : Outcome :=
  let next := entry o.settings
  ⟨next.settings, o.taken && next.taken, o.reports ++ next.reports⟩

/-- Applies every token of a command line. It is taken if all of them are. -/
def applyCommandLine (s : Settings) (line : String) : Outcome :=
  (Text.tokens line).foldl (fun o token => o.andThen (·.setToken token)) ⟨s, true, []⟩

/-- What the names of environment variables that set options start with. -/
def environmentMark : String := "MMTK_"

/-- A letter in lower case, as far as the result is an ASCII letter; names of options have no
others. The sign for kelvin is such a letter. -/
def foldLetter (c : Char) : Char := if c.toNat = 0x212a then 'k' else c.toLower

/-- The option that an environment variable sets. -/
def keyOfVariable? (label : String) : Option Key :=
  if environmentMark.toList.isPrefixOf label.toList then
    let rest := label.toList.drop environmentMark.length
    Key.ofName? (String.ofList (rest.map foldLetter))
  else none

/-- Applies the environment variables that name an option, in order. Others are passed over. -/
def applyEnvironment (s : Settings) (env : List (String × String)) : Outcome :=
  env.foldl (fun o v =>
    match keyOfVariable? v.1 with
    | some k => o.andThen (·.set k.name v.2)
    | none => o) ⟨s, true, []⟩

/-- An environment after one more variable is set. A variable that is set again keeps its place. -/
def setVariable (env : List (String × String)) (name value : String) : List (String × String) :=
  if env.any (·.1 == name) then env.map fun v => if v.1 == name then (name, value) else v
  else env ++ [(name, value)]

/-- An environment from settings of variables in order. -/
def environmentOf (sets : List (String × String)) : List (String × String) :=
  sets.foldl (fun env v => setVariable env v.1 v.2) []

end Settings
end HeapBridge
