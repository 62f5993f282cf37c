import HeapBridge.Text.Tokens

/-!
# What tokens are

The tokens of a line are the pieces between its blanks, without the empty ones. A token gives a name
and a value if it is the two of them with an equals sign between, and the name has none.
-/
namespace HeapBridge.Text

theorem closeToken_append (opened : List Char) (pieces : List (List Char)) :
    closeToken opened ++ pieces.filter (fun piece => !piece.isEmpty) =
      (opened.reverse :: pieces).filter (fun piece => !piece.isEmpty) := by
  cases opened with
  | nil => rfl
  | cons c cs => simp [closeToken]

/-- A token that was not begun adds nothing. -/
theorem modifyHead_nil_append (pieces : List (List Char)) :
    pieces.modifyHead (([] : List Char).reverse ++ ·) = pieces :=
  congrFun List.modifyHead_id pieces

/-- An open token belongs to the first piece, by induction on what is still to be read. -/
theorem tokensFrom_eq (opened cs : List Char) :
    tokensFrom opened cs =
      ((cs.splitOnP isBlank).modifyHead (opened.reverse ++ ·)).filter fun piece =>
        !piece.isEmpty := by
  induction cs generalizing opened with
  | nil => simpa [tokensFrom] using closeToken_append opened []
  | cons c cs ih =>
    rw [List.splitOnP_cons_eq_if_modifyHead, tokensFrom]
    cases hblank : isBlank c with
    | true =>
      rw [if_pos rfl, if_pos rfl, ih, modifyHead_nil_append, closeToken_append,
        List.modifyHead_cons, List.append_nil]
    | false =>
      rw [if_neg Bool.false_ne_true, if_neg Bool.false_ne_true, ih, List.modifyHead_modifyHead]
      simp [Function.comp_def]

/-- The pieces of a line between its blanks, without the empty ones. -/
def words (line : String) : List String :=
  ((line.toList.splitOnP isBlank).filter fun piece => !piece.isEmpty).map String.ofList

theorem tokens_eq_words (line : String) : tokens line = words line := by
  rw [tokens, tokensFrom_eq, modifyHead_nil_append, words]

theorem splitPair?_append {name : String} (hname : '=' ∉ name.toList) (value : String) :
    splitPair? (name ++ "=" ++ value) = some (name, value) := by
  have hkept : ∀ c ∈ name.toList, (c != '=') = true := by
    intro c hc
    simpa using fun heq : c = '=' => hname (heq ▸ hc)
  have htoken : (name ++ "=" ++ value).toList = name.toList ++ '=' :: value.toList := by simp
  have hdrop : (name.toList ++ '=' :: value.toList).dropWhile (· != '=') = '=' :: value.toList := by
    rw [List.dropWhile_append_of_pos hkept]
    rfl
  have htake : (name.toList ++ '=' :: value.toList).takeWhile (· != '=') = name.toList := by
    rw [List.takeWhile_append_of_pos hkept]
    simp
  simp only [splitPair?, htoken, hdrop, htake, String.ofList_toList]

/-- The name ends at the first equals sign. -/
theorem splitPair?_eq_some_iff {token name value : String} :
    splitPair? token = some (name, value) ↔
      token = name ++ "=" ++ value ∧ '=' ∉ name.toList := by
  constructor
  · intro hpair
    simp only [splitPair?] at hpair
    split at hpair
    case h_1 => cases hpair
    case h_2 c rest hdrop =>
      cases hpair
      have hsign : c = '=' := by
        have hnot := List.head_dropWhile_not (· != '=') (l := token.toList) (by simp [hdrop])
        simpa [hdrop] using hnot
      refine ⟨?_, ?_⟩
      · have hwhole := List.takeWhile_append_dropWhile (p := (· != '=')) (l := token.toList)
        rw [hdrop, hsign] at hwhole
        rw [← String.toList_inj]
        simpa using hwhole.symm
      · intro hmem
        have hall := List.all_takeWhile (p := (· != '=')) (l := token.toList)
        rw [String.toList_ofList] at hmem
        simpa using List.all_eq_true.mp hall '=' hmem
  · rintro ⟨rfl, hname⟩
    exact splitPair?_append hname value

end HeapBridge.Text
