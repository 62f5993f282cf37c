/-!
# Association lists

A finite map as a list of pairs with distinct keys, in the order in which the keys came in.
-/
namespace HeapBridge

/-- Keys with values. -/
structure Assoc (α β : Type) where
  entries : List (α × β)
deriving Inhabited

namespace Assoc
variable {α β : Type} [DecidableEq α]

def empty : Assoc α β := ⟨[]⟩

/-- The value of a key. -/
def get? (m : Assoc α β) (k : α) : Option β := (m.entries.find? fun e => e.1 = k).map (·.2)

/-- The value of a key, or a default. -/
def getD (m : Assoc α β) (k : α) (d : β) : β := (m.get? k).getD d

/-- Gives a key a value. A key that was there keeps its place. -/
def insertInto (k : α) (v : β) : List (α × β) → List (α × β)
  | [] => [(k, v)]
  | e :: es => if e.1 = k then (k, v) :: es else e :: insertInto k v es

/-- Gives a key a value. -/
def insert (m : Assoc α β) (k : α) (v : β) : Assoc α β := ⟨insertInto k v m.entries⟩

theorem find?_insertInto (k x : α) (v : β) (es : List (α × β)) :
    ((insertInto k v es).find? fun e => e.1 = x).map (·.2) =
      if x = k then some v else (es.find? fun e => e.1 = x).map (·.2) := by
  induction es with
  | nil => by_cases h : k = x <;> simp [insertInto, h, eq_comm]
  | cons e es ih =>
    by_cases he : e.1 = k
    · by_cases hx : k = x
      · simp [insertInto, he, hx]
      · simp [insertInto, he, hx, Ne.symm hx]
    · by_cases hx : e.1 = x
      · have : x ≠ k := fun h => he (hx.trans h)
        simp [insertInto, hx, this]
      · simp [insertInto, he, hx, ih]

@[simp] theorem get?_insert (m : Assoc α β) (k x : α) (v : β) :
    (m.insert k v).get? x = if x = k then some v else m.get? x := find?_insertInto k x v m.entries

end Assoc
end HeapBridge
