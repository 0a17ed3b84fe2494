import Mathlib.Data.List.Forall2
import PathOptions.Glob.Token
/-!
How a glob is spelled: a backslash and the character after it belong together, and any other
character stands by itself. Only the last spelling can be a backslash alone, and it is one exactly
if the glob ends with an odd number of backslashes (`lone_mem_spellings_iff`).
-/

namespace PathOptions.Glob

/-- The spellings that a glob consists of, each one for one symbol. -/
def spellings : Text → List Text
  | [] => []
  | c :: cs =>
    if c = '\\' then
      match cs with
      | [] => [[c]]
      | d :: rest => [c, d] :: spellings rest
    else [c] :: spellings cs

/-- A symbol is spelled by its character, or behind a backslash, which protects it unless it is a
letter or a digit. -/
inductive Symbol.Spelled : Text → Symbol → Prop
  | plain (c : Char) : Spelled [c] ⟨c, false⟩
  | behindBackslash (c : Char) : Spelled ['\\', c] ⟨c, !c.isAlphanum⟩

section

variable {c : Char}

theorem spellings_cons (h : c ≠ '\\') (t : Text) : spellings (c :: t) = [c] :: spellings t := by
  rw [spellings.eq_def]
  exact if_neg h

theorem flatten_spellings (glob : Text) : (spellings glob).flatten = glob := by
  fun_induction spellings glob with
  | case1 | case2 => rfl
  | case3 d rest ih => rw [List.flatten_cons, ih, List.cons_append, List.singleton_append]
  | case4 c cs _ ih => rw [List.flatten_cons, ih, List.singleton_append]

theorem spelled_symbols (glob : Text) :
    List.Forall₂ Symbol.Spelled (spellings glob) (symbols glob) := by
  fun_induction spellings glob with
  | case1 => exact .nil
  | case2 => exact .cons (.plain '\\') .nil
  | case3 d rest ih => exact .cons (.behindBackslash d) ih
  | case4 c cs hslash ih =>
    rw [symbols_cons hslash]
    exact .cons (.plain c) ih

/-! ## Backslashes at the end -/

/-- How many backslashes a text ends with. -/
def endBackslashes (t : Text) : Nat := (t.reverse.takeWhile (· == '\\')).length

theorem endBackslashes_le (t : Text) : endBackslashes t ≤ t.length := by
  have hle := (List.takeWhile_sublist (· == '\\') (l := t.reverse)).length_le
  rwa [List.length_reverse] at hle

theorem endBackslashes_cons_of_ne (h : c ≠ '\\') (t : Text) :
    endBackslashes (c :: t) = endBackslashes t := by
  rw [endBackslashes, List.reverse_cons, List.takeWhile_append]
  split
  · rename_i hall
    simp [h, endBackslashes, hall]
  · rfl

theorem endBackslashes_backslash (t : Text) :
    endBackslashes ('\\' :: t) =
      if endBackslashes t = t.length then t.length + 1 else endBackslashes t := by
  rw [endBackslashes, List.reverse_cons, List.takeWhile_append, ← endBackslashes,
    List.length_reverse]
  split
  · simp
  · rfl

/-- A backslash and what it stands before leave the number even or odd. -/
theorem endBackslashes_behind_backslash (c : Char) (t : Text) :
    endBackslashes ('\\' :: c :: t) % 2 = endBackslashes t % 2 := by
  have hle := endBackslashes_le t
  rw [endBackslashes_backslash, List.length_cons]
  by_cases hc : c = '\\'
  · rw [hc, endBackslashes_backslash]
    split <;> split <;> omega
  · rw [endBackslashes_cons_of_ne hc]
    split <;> omega

/-- A glob ends with a lone backslash if it ends with an odd number of backslashes. -/
theorem lone_mem_spellings_iff (glob : Text) :
    ['\\'] ∈ spellings glob ↔ endBackslashes glob % 2 = 1 := by
  fun_induction spellings glob with
  | case1 => decide
  | case2 => decide
  | case3 d rest ih =>
    rw [endBackslashes_behind_backslash, ← ih]
    simp
  | case4 c cs hslash ih =>
    rw [endBackslashes_cons_of_ne hslash, ← ih]
    simp [Ne.symm hslash]

end

end PathOptions.Glob
