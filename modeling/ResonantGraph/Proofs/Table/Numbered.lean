import ResonantGraph.Memory
import Mathlib.Data.String.Basic

/-!
# Values under numbered keys

A table can hold a list: each value under a common beginning and its position (`Table.numbered`). Numbers are
told apart by their digits, so no value is in the place of another, and each is found by its position
(`Table.find?_insertAll_numbered`). A key that is none of theirs is left alone
(`Table.find?_insertAll_numbered_of_ne`).
-/

namespace ResonantGraph

namespace Table

variable {α : Type} {start key : String}

/-- Values under keys that begin alike and are numbered from a position on. -/
def numbered (start : String) : Nat → List α → List (String × α)
  | _, [] => []
  | n, value :: rest => (start ++ toString n, value) :: numbered start (n + 1) rest

theorem numberedKey_injective {i j : Nat} (h : start ++ toString i = start ++ toString j) : i = j := by
  rw [String.append_right_inj] at h
  have hdigits : Nat.toDigits 10 i = Nat.toDigits 10 j := by
    have hlists : (toString i).toList = (toString j).toList := congrArg String.toList h
    rwa [show (toString i).toList = _ from Nat.toList_repr,
      show (toString j).toList = _ from Nat.toList_repr] at hlists
  calc
    i = Nat.ofDigitChars 10 (Nat.toDigits 10 i) 0 := Nat.ofDigitChars_ten_toDigits.symm
    _ = Nat.ofDigitChars 10 (Nat.toDigits 10 j) 0 := by rw [hdigits]
    _ = j := Nat.ofDigitChars_ten_toDigits

theorem beginsWith_append {text start : String} (h : Memory.beginsWith text start = true)
    (rest : String) : Memory.beginsWith (text ++ rest) start = true := by
  unfold Memory.beginsWith at h ⊢
  rw [List.isPrefixOf_iff_prefix] at h ⊢
  rw [String.toList_append]
  exact h.trans (List.prefix_append _ _)

theorem insertAll_append (t : Table α) (l m : List (String × α)) :
    t.insertAll (l ++ m) = (t.insertAll l).insertAll m := List.foldl_append ..

/-- Entries under other keys leave a key alone. -/
theorem find?_insertAll_of_forall_ne (t : Table α) {l : List (String × α)} (h : ∀ e ∈ l, e.1 ≠ key) :
    (t.insertAll l).find? key = t.find? key := by
  rw [find?_insertAll, lookup_eq_none fun e he => h e (List.mem_reverse.1 he), Option.none_or]

theorem exists_of_mem_numbered {n : Nat} {values : List α} {e : String × α}
    (h : e ∈ numbered start n values) : ∃ i < values.length, e.1 = start ++ toString (n + i) := by
  induction values generalizing n with
  | nil => cases h
  | cons value rest ih =>
    rcases List.mem_cons.1 h with rfl | hrest
    · exact ⟨0, Nat.succ_pos _, rfl⟩
    · obtain ⟨i, hi, hkey⟩ := ih hrest
      rw [Nat.add_assoc, Nat.add_comm 1 i] at hkey
      exact ⟨i + 1, Nat.succ_lt_succ hi, hkey⟩

/-- Every other key is left alone. -/
theorem find?_insertAll_numbered_of_ne (t : Table α) {n : Nat} {values : List α}
    (h : ∀ i < values.length, key ≠ start ++ toString (n + i)) :
    (t.insertAll (numbered start n values)).find? key = t.find? key := by
  apply find?_insertAll_of_forall_ne
  intro e he heq
  obtain ⟨i, hi, hkey⟩ := exists_of_mem_numbered he
  exact h i hi (heq.symm.trans hkey)

/-- The values are found by position. -/
theorem find?_insertAll_numbered (t : Table α) (start : String) (n i : Nat) (values : List α) :
    (t.insertAll (numbered start n values)).find? (start ++ toString (n + i)) =
      values[i]?.or (t.find? (start ++ toString (n + i))) := by
  induction values generalizing t n i with
  | nil => rfl
  | cons value rest ih =>
    change ((t.insert (start ++ toString n) value).insertAll (numbered start (n + 1) rest)).find? _ = _
    cases i with
    | zero =>
      -- no later position has the key of this one
      have hne : ∀ i < rest.length, start ++ toString (n + 0) ≠ start ++ toString (n + 1 + i) := by
        intro i _ heq
        have hsame := numberedKey_injective heq
        omega
      rw [find?_insertAll_numbered_of_ne _ hne]
      exact find?_insert_self ..
    | succ i =>
      have hne : start ++ toString n ≠ start ++ toString (n + 1 + i) := by
        intro heq
        have hsame := numberedKey_injective heq
        omega
      rw [show n + (i + 1) = n + 1 + i by omega, ih, find?_insert, if_neg hne]
      rfl

end Table

end ResonantGraph
