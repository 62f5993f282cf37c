import HeapBridge.Proofs.Settings.Grammar
import HeapBridge.Proofs.Text.Tokens
import HeapBridge.Proofs.Watching
import HeapBridge.Settings.Building

/-!
# Which entry prevails

An option has the value that the last token gives it which it accepts. If no token does, the last
variable of the environment counts, and if no variable does, its default. Entries that are not
accepted make no difference to any option, whatever is wrong with them.
-/
namespace HeapBridge.Settings
variable {k : Key} {v : k.Value} {s t : Settings} {token : String} {label : String × String}

/-! ## Entries -/

/-- A token gives an option a value that it accepts. -/
def Key.TakesToken (k : Key) (token : String) (v : k.Value) : Prop :=
  ∃ text, token = k.name ++ "=" ++ text ∧ k.Accepts text v

/-- A variable of the environment gives an option a value that it accepts. -/
def Key.TakesVariable (k : Key) (label : String × String) (v : k.Value) : Prop :=
  ∃ rest, label.1 = environmentMark ++ rest ∧ rest.toList.map foldLetter = k.name.toList ∧
    k.Accepts label.2 v

theorem Key.not_mem_name (k : Key) : '=' ∉ k.name.toList := by cases k <;> decide

theorem Key.ofName?_eq_some_iff {name : String} : Key.ofName? name = some k ↔ name = k.name := by
  constructor
  · intro h
    unfold Key.ofName? at h
    have hname := List.find?_some h
    exact (beq_iff_eq.mp hname).symm
  · rintro rfl
    exact k.ofName?_name

theorem set_of_accepts {text : String} (h : k.Accepts text v) (s : Settings) :
    s.set k.name text = ⟨s.put k v, true, []⟩ := by
  rw [set, k.ofName?_name]
  simp only [Key.read_eq_ok_iff.mpr h]

/-- A text that an option does not accept is reported and changes nothing. -/
theorem set_of_not_accepts {name text : String}
    (h : ∀ k v, name = Key.name k → ¬ k.Accepts text v) :
    ∃ reports, ∀ s : Settings, s.set name text = ⟨s, false, reports⟩ := by
  cases hkey : Key.ofName? name with
  | none => exact ⟨_, fun s => by rw [set, hkey]⟩
  | some k =>
    have hname := Key.ofName?_eq_some_iff.mp hkey
    cases hread : k.read text with
    | ok v => exact absurd (Key.read_eq_ok_iff.mp hread) (h k v hname)
    | error refusal =>
      cases refusal
      · exact ⟨[.unreadableValue name text], fun s => by simp only [set, hkey, hread]⟩
      · exact ⟨[.invalidValue name text], fun s => by simp only [set, hkey, hread]⟩

/-- A token is taken, or it changes nothing, whatever was set before. -/
theorem setToken_eq (token : String) :
    (∃ k v, Key.TakesToken k token v ∧ ∀ s, setToken s token = ⟨s.put k v, true, []⟩) ∨
      (∀ k v, ¬ Key.TakesToken k token v) ∧
        ∃ reports, ∀ s, setToken s token = ⟨s, false, reports⟩ := by
  cases hpair : Text.splitPair? token with
  | none =>
    refine .inr ⟨?_, [.notAPair token], fun s => by simp only [setToken, hpair]⟩
    rintro k v ⟨text, rfl, -⟩
    cases hpair.symm.trans (Text.splitPair?_append k.not_mem_name text)
  | some pair =>
    obtain ⟨name, text⟩ := pair
    have hset : ∀ s, setToken s token = s.set name text := fun s => by simp only [setToken, hpair]
    by_cases htakes : ∃ k v, name = Key.name k ∧ k.Accepts text v
    · obtain ⟨k, v, rfl, haccepts⟩ := htakes
      obtain ⟨htoken, -⟩ := Text.splitPair?_eq_some_iff.mp hpair
      exact .inl ⟨k, v, ⟨text, htoken, haccepts⟩, fun s => by rw [hset, set_of_accepts haccepts]⟩
    · obtain ⟨reports, heq⟩ := set_of_not_accepts fun k v hname haccepts =>
        htakes ⟨k, v, hname, haccepts⟩
      refine .inr ⟨?_, reports, fun s => by rw [hset, heq]⟩
      rintro k v ⟨text', rfl, haccepts⟩
      cases hpair.symm.trans (Text.splitPair?_append k.not_mem_name text')
      exact htakes ⟨k, v, rfl, haccepts⟩

/-! ## Entries one after the other -/

/-- The last item that does something does it to `b`. -/
def IsLast {α β : Type} (does : α → β → Prop) (items : List α) (b : β) : Prop :=
  ∃ before item after, items = before ++ item :: after ∧ does item b ∧
    ∀ later ∈ after, ∀ b', ¬ does later b'

theorem ext_get (h : ∀ k, s.get k = t.get k) : s = t := by
  cases s
  cases t
  exact congrArg mk (funext h)

/-- Entries that give options values, and change nothing else. -/
structure Gives {α : Type} (does : (k : Key) → α → k.Value → Prop)
    (step : Settings → α → Settings) : Prop where
  set : ∀ {k a v}, does k a v → ∀ s, step s a = s.put k v
  keep : ∀ {a}, (∀ k v, ¬ does k a v) → ∀ s, step s a = s

namespace Gives
variable {α : Type} {does : (k : Key) → α → k.Value → Prop} {step : Settings → α → Settings}

/-- After entries one after the other an option has the last value that it was given, or the one
that it had, by induction on the entries. -/
theorem get_foldl (h : Gives does step) (items : List α) (k : Key) :
    (∃ v, IsLast (does k) items v ∧ ∀ s, (items.foldl step s).get k = v) ∨
      (∀ a ∈ items, ∀ v, ¬ does k a v) ∧ ∀ s, (items.foldl step s).get k = s.get k := by
  induction items with
  | nil => exact .inr ⟨nofun, fun _ => rfl⟩
  | cons a items ih =>
    obtain ⟨v, ⟨before, item, after, rfl, hitem, hafter⟩, hget⟩ | ⟨hnone, hget⟩ := ih
    · exact .inl ⟨v, ⟨a :: before, item, after, rfl, hitem, hafter⟩, fun s => hget _⟩
    · by_cases htakes : ∃ v, does k a v
      · obtain ⟨v, hv⟩ := htakes
        refine .inl ⟨v, ⟨[], a, items, rfl, hv, hnone⟩, fun s => ?_⟩
        rw [List.foldl_cons, hget, h.set hv, get_put_self]
      · refine .inr ⟨List.forall_mem_cons.mpr ⟨not_exists.mp htakes, hnone⟩, fun s => ?_⟩
        rw [List.foldl_cons, hget]
        by_cases hother : ∃ k' v', does k' a v'
        · obtain ⟨k', v', hv'⟩ := hother
          have hk : k ≠ k' := by
            rintro rfl
            exact htakes ⟨v', hv'⟩
          rw [h.set hv', get_put_of_ne hk]
        · rw [h.keep fun k' v' hv' => hother ⟨k', v', hv'⟩]

/-- Entries that are applied once more change nothing. -/
theorem foldl_foldl (h : Gives does step) (items : List α) (s : Settings) :
    items.foldl step (items.foldl step s) = items.foldl step s := by
  refine ext_get fun k => ?_
  obtain ⟨v, -, hget⟩ | ⟨-, hget⟩ := h.get_foldl items k
  · rw [hget, hget]
  · exact hget _

/-- An entry that gives no option a value makes no difference to those before and after it. -/
theorem foldl_append_cons (h : Gives does step) {a : α} (ha : ∀ k v, ¬ does k a v)
    (before after : List α) (s : Settings) :
    (before ++ a :: after).foldl step s = (before ++ after).foldl step s := by
  rw [List.foldl_append, List.foldl_cons, h.keep ha, List.foldl_append]

end Gives

/-! ## Command lines -/

/-- Applies tokens one after the other. -/
def takeTokens (s : Settings) (tokens : List String) : Settings :=
  tokens.foldl (fun s token => (s.setToken token).settings) s

theorem gives_tokens : Gives Key.TakesToken fun s token => (s.setToken token).settings where
  set := by
    intro k token v htakes s
    obtain ⟨text, rfl, haccepts⟩ := htakes
    rw [setToken, Text.splitPair?_append k.not_mem_name]
    simp only [set_of_accepts haccepts]
  keep := by
    intro token hnone s
    obtain ⟨k, v, htakes, -⟩ | ⟨-, reports, heq⟩ := setToken_eq token
    · exact absurd htakes (hnone k v)
    · rw [heq]

theorem takeTokens_takeTokens (s : Settings) (tokens : List String) :
    (s.takeTokens tokens).takeTokens tokens = s.takeTokens tokens :=
  gives_tokens.foldl_foldl tokens s

/-- What is taken of a command line and what is reported does not depend on what was set before, by
induction on its tokens. -/
theorem foldl_andThen (tokens : List String) :
    ∃ taken reports, (taken = true ↔ ∀ token ∈ tokens, ∃ k v, Key.TakesToken k token v) ∧
      ∀ o : Outcome, tokens.foldl (fun o token => o.andThen (·.setToken token)) o =
        ⟨takeTokens o.settings tokens, o.taken && taken, o.reports ++ reports⟩ := by
  induction tokens with
  | nil => exact ⟨true, [], by simp, fun o => by simp [takeTokens]⟩
  | cons token tokens ih =>
    obtain ⟨taken, reports, htaken, hrest⟩ := ih
    obtain ⟨k, v, htakes, heq⟩ | ⟨hnone, first, heq⟩ := setToken_eq token
    · refine ⟨taken, reports, ?_, fun o => ?_⟩
      · rw [htaken, List.forall_mem_cons]
        exact ⟨fun h => ⟨⟨k, v, htakes⟩, h⟩, fun h => h.2⟩
      · rw [List.foldl_cons, hrest]
        simp [Outcome.andThen, heq, takeTokens]
    · refine ⟨false, first ++ reports, ?_, fun o => ?_⟩
      · rw [List.forall_mem_cons]
        refine ⟨nofun, fun h => ?_⟩
        obtain ⟨k, v, htakes⟩ := h.1
        exact absurd htakes (hnone k v)
      · rw [List.foldl_cons, hrest]
        simp [Outcome.andThen, heq, takeTokens]

theorem applyCommandLine_eq (line : String) :
    ∃ taken reports, (taken = true ↔ ∀ token ∈ Text.words line, ∃ k v, Key.TakesToken k token v) ∧
      ∀ s : Settings, s.applyCommandLine line =
        ⟨takeTokens s (Text.words line), taken, reports⟩ := by
  obtain ⟨taken, reports, htaken, heq⟩ := foldl_andThen (Text.words line)
  refine ⟨taken, reports, htaken, fun s => ?_⟩
  rw [applyCommandLine, Text.tokens_eq_words, heq]
  simp

/-! ## Environments -/

theorem keyOfVariable?_eq_some_iff {label : String} :
    keyOfVariable? label = some k ↔
      ∃ rest, label = environmentMark ++ rest ∧ rest.toList.map foldLetter = k.name.toList := by
  have hname : ∀ letters : List Char,
      Key.ofName? (String.ofList letters) = some k ↔ letters = k.name.toList := by
    intro letters
    rw [Key.ofName?_eq_some_iff, ← String.toList_inj, String.toList_ofList]
  unfold keyOfVariable?
  split
  case isTrue hmarked =>
    obtain ⟨rest, hrest⟩ := List.isPrefixOf_iff_prefix.mp hmarked
    have hlabel : label = environmentMark ++ String.ofList rest := by
      rw [← String.toList_inj, ← hrest]
      simp
    have hdrop : label.toList.drop environmentMark.length = rest := by
      rw [← hrest, ← String.length_toList, List.drop_left]
    rw [hdrop, hname]
    constructor
    · exact fun h => ⟨String.ofList rest, hlabel, by rw [String.toList_ofList, h]⟩
    · rintro ⟨rest', hlabel', hletters⟩
      have hsame : rest'.toList = rest := by
        have htails := congrArg String.toList (hlabel'.symm.trans hlabel)
        simpa using htails
      rw [← hsame, hletters]
  case isFalse hmarked =>
    refine ⟨nofun, ?_⟩
    rintro ⟨rest, rfl, -⟩
    exact absurd (List.isPrefixOf_iff_prefix.mpr ⟨rest.toList, by simp⟩) hmarked

/-- Applies the value of a variable, if it names an option. -/
def takeVariable (s : Settings) (label : String × String) : Settings :=
  match keyOfVariable? label.1 with
  | some k => (s.set k.name label.2).settings
  | none => s

theorem gives_variables : Gives Key.TakesVariable takeVariable where
  set := by
    intro k label v htakes s
    obtain ⟨rest, hlabel, hname, haccepts⟩ := htakes
    rw [takeVariable, keyOfVariable?_eq_some_iff.mpr ⟨rest, hlabel, hname⟩]
    simp only [set_of_accepts haccepts]
  keep := by
    intro label hnone s
    rw [takeVariable]
    split
    case h_1 k hkey =>
      obtain ⟨rest, hlabel, hname⟩ := keyOfVariable?_eq_some_iff.mp hkey
      have hrefused : ∀ k' v, k.name = Key.name k' → ¬ k'.Accepts label.2 v := by
        intro k' v hsame haccepts
        exact hnone k' v ⟨rest, hlabel, hname.trans (by rw [hsame]), haccepts⟩
      obtain ⟨reports, heq⟩ := set_of_not_accepts hrefused
      rw [heq]
    case h_2 => rfl

theorem settings_applyEnvironment (s : Settings) (env : List (String × String)) :
    (s.applyEnvironment env).settings = env.foldl takeVariable s := by
  suffices hfold : ∀ o : Outcome, (env.foldl (fun o v =>
      match keyOfVariable? v.1 with
      | some k => o.andThen (·.set k.name v.2)
      | none => o) o).settings = env.foldl takeVariable o.settings from hfold _
  induction env with
  | nil => exact fun _ => rfl
  | cons v env ih =>
    intro o
    rw [List.foldl_cons, List.foldl_cons, ih, takeVariable]
    split <;> rfl

/-! ## Precedence -/

/-- The value that an option has after an environment and a command line. -/
inductive Prevails (env : List (String × String)) (line : String) (k : Key) : k.Value → Prop
  | token {v : k.Value} (h : IsLast k.TakesToken (Text.words line) v) : Prevails env line k v
  | variable {v : k.Value} (hline : ∀ token ∈ Text.words line, ∀ v, ¬ k.TakesToken token v)
    (h : IsLast k.TakesVariable env v) : Prevails env line k v
  | default (hline : ∀ token ∈ Text.words line, ∀ v, ¬ k.TakesToken token v)
    (henv : ∀ label ∈ env, ∀ v, ¬ k.TakesVariable label v) : Prevails env line k k.default

/-- Settings that were built from an environment and a command line, with the answer to the latter.
-/
structure Built (env : List (String × String)) (line : String) (answer : Except Fault Bool)
    (o : Outcome) : Prop where
  prevails : ∀ k, Prevails env line k (o.settings.get k)
  /-- A token that no option accepts makes no difference, also not to those that follow it. -/
  without_token : ∀ before token after, Text.words line = before ++ token :: after →
    (∀ k v, ¬ Key.TakesToken k token v) →
    o.settings = takeTokens (defaults.applyEnvironment env).settings (before ++ after)
  /-- Neither does a variable. -/
  without_variable : ∀ before label after, env = before ++ label :: after →
    (∀ k v, ¬ Key.TakesVariable k label v) →
    o.settings =
      takeTokens (defaults.applyEnvironment (before ++ after)).settings (Text.words line)
  ok_iff : answer = .ok true ↔ ∀ token ∈ Text.words line, ∃ k v, Key.TakesToken k token v
  /-- The refusal quotes the whole line. -/
  refused : answer ≠ .ok true → answer = .error (.badOptions line)
  /-- The line that is applied once more changes nothing, and gets the same answer. -/
  again : (applyLine line).attempt o = (answer, o)

theorem attempt_applyLine (line : String) (o : Outcome) :
    (applyLine line).attempt o =
      (if (o.settings.applyCommandLine line).taken then .ok true else .error (.badOptions line),
        o.settings.applyCommandLine line) := by
  have happly : (apply (·.applyCommandLine line)).attempt o =
      (.ok (o.settings.applyCommandLine line).taken, o.settings.applyCommandLine line) := rfl
  rw [applyLine, Act.attempt_bind, happly]
  cases (o.settings.applyCommandLine line).taken <;> rfl

/-- Of all the entries that an option accepts the last one counts, and a command line counts before
an environment. -/
theorem built_by_precedence (env : List (String × String)) (line : String) :
    let built := (applyLine line).attempt (defaults.applyEnvironment env)
    Built env line built.1 built.2 := by
  obtain ⟨taken, reports, htaken, heq⟩ := applyCommandLine_eq line
  have hbuilt : ∀ o : Outcome, (applyLine line).attempt o =
      (if taken then .ok true else .error (.badOptions line),
        ⟨takeTokens o.settings (Text.words line), taken, reports⟩) := by
    intro o
    rw [attempt_applyLine, heq]
  intro built
  have hsettings : built.2.settings =
      takeTokens (defaults.applyEnvironment env).settings (Text.words line) := by
    simp only [built, hbuilt]
  refine ⟨?_, ?_, ?_, ?_, ?_, ?_⟩
  · intro k
    rw [hsettings]
    obtain ⟨v, hlast, hget⟩ | ⟨hline, hget⟩ := gives_tokens.get_foldl (Text.words line) k
    · rw [takeTokens, hget]
      exact .token hlast
    · rw [takeTokens, hget, settings_applyEnvironment]
      obtain ⟨v, hlast, hget⟩ | ⟨henv, hget⟩ := gives_variables.get_foldl env k
      · rw [hget]
        exact .variable hline hlast
      · rw [hget]
        exact .default hline henv
  · intro before token after htokens hnone
    rw [hsettings, htokens]
    exact gives_tokens.foldl_append_cons hnone before after _
  · rintro before label after rfl hnone
    rw [hsettings, settings_applyEnvironment, settings_applyEnvironment,
      gives_variables.foldl_append_cons hnone]
  · rw [← htaken]
    simp only [built, hbuilt]
    cases taken <;> simp
  · simp only [built, hbuilt]
    cases taken <;> simp
  · simp only [built, hbuilt]
    rw [takeTokens_takeTokens]

/-- The last number that fits counts. -/
example :
    let line := "large_bump_threshold=1\tlarge_bump_threshold=+2 large_bump_threshold=x"
    ((applyLine line).attempt (defaults.applyEnvironment [])).2.settings.get
      .largeBumpThreshold = 2 := by
  rfl

end HeapBridge.Settings
