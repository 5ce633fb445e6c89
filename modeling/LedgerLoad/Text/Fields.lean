/-!
Texts in parts: the fields between separators, and whether one text occurs in another. There is always one field more than
there are separators.
-/

set_option autoImplicit false

namespace LedgerLoad.Text

def splitOn (sep : Char → Bool) : List Char → List (List Char)
  | [] => [[]]
  | c :: r =>
    match splitOn sep r with
    | [] => [[c]]
    | field :: fields => if sep c then [] :: field :: fields else (c :: field) :: fields

theorem splitOn_ne_nil (sep : Char → Bool) (s : List Char) : splitOn sep s ≠ [] := by
  cases s with
  | nil => simp [splitOn]
  | cons c r =>
    unfold splitOn
    split
    · simp
    · split <;> simp

theorem splitOn_of_none {sep : Char → Bool} {s : List Char} (h : ∀ c ∈ s, sep c = false) : splitOn sep s = [s] := by
  induction s with
  | nil => rfl
  | cons c r ih =>
    rw [splitOn, ih fun x hx => h x (List.mem_cons_of_mem c hx)]
    simp [h c]

def occursIn (part : List Char) : List Char → Bool
  | [] => part.isEmpty
  | c :: r => part.isPrefixOf (c :: r) || occursIn part r

end LedgerLoad.Text
