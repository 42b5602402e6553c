import Mathlib
import Primer.Value.Operators

/-!
# Lists as sequences

Four operators treat a list as a sequence: `+` puts an element behind it, `*` joins two, `/` takes the
element at an index and `-` leaves that element out. An index counts from the start, or from the end if
it is negative.

## Main result

`lists_are_sequences`: which indexes a list has, and what the operators do at each of them.

## Proof strategy

`/` and `-` find their place in one and the same way, so it is settled first which index stands for
which place (`Resolves`) and which stands for none. What an operator does is then said at the place,
in terms of the elements before and behind it, and the laws between operators are read off at the
places of longer lists.
-/

namespace Primer.Value

/-! ### The place of an index -/

/-- A list of the given length has the index, counted from the start or from the end. -/
def InBounds (length : Nat) (index : Int) : Prop :=
  -(length : Int) ≤ index ∧ index < length

instance (length : Nat) (index : Int) : Decidable (InBounds length index) :=
  inferInstanceAs (Decidable (_ ∧ _))

/-- The index stands for the place in a list of the given length: it counts from the start, or from the
end if it is negative. -/
structure Resolves (length : Nat) (index : Int) (place : Nat) : Prop where
  inside : place < length
  counted : (place : Int) = if 0 ≤ index then index else index + length

section

variable {length place : Nat}

theorem InBounds.exists_resolves {index : Int} (inBounds : InBounds length index) :
    ∃ place, Resolves length index place := by
  obtain ⟨low, high⟩ := inBounds
  by_cases front : 0 ≤ index
  · refine ⟨index.toNat, by omega, ?_⟩
    rw [if_pos front]
    omega
  · refine ⟨(index + length).toNat, by omega, ?_⟩
    rw [if_neg front]
    omega

/-- The sum that finds the place of a negative index is one of 64-bit integers, because it lies between
the index and the length. -/
theorem toInt_add_length {index : Int64} (negative : index.toInt < 0) (short : length < 2 ^ 63) :
    (index + Int64.ofNat length).toInt = index.toInt + length := by
  have low := Int64.le_toInt index
  rw [Int64.toInt_add, Int64.toInt_ofNat_of_lt short]
  apply Int.bmod_eq_of_le <;> omega

/-- No sum overflows, so the place may be reckoned in integers of any size. -/
theorem place?_eq (short : length < 2 ^ 63) (index : Int64) :
    let place := if index.toInt < 0 then index.toInt + length else index.toInt
    place? length (.int index) = if 0 ≤ place ∧ place < length then some place.toNat else none := by
  have reckoned : (if index < 0 then index + Int64.ofNat length else index).toInt
      = if index.toInt < 0 then index.toInt + length else index.toInt := by
    have negative : index < 0 ↔ index.toInt < 0 := Int64.lt_iff_toInt_lt
    rw [apply_ite Int64.toInt]
    simp only [negative]
    split
    next below => exact toInt_add_length below short
    next => rfl
  simp only [place?, int64?, Nat.pow_eq, if_pos short, Option.bind_eq_bind, Option.bind_some]
  rw [← reckoned]
  generalize (if index < 0 then index + Int64.ofNat length else index) = place
  have zero : Int64.toInt 0 = 0 := rfl
  simp only [Int64.le_iff_toInt_le, Int64.lt_iff_toInt_lt, Int64.toInt_ofNat_of_lt short, zero]

theorem place?_of_resolves {index : Int64} (short : length < 2 ^ 63)
    (resolves : Resolves length index.toInt place) : place? length (.int index) = some place := by
  obtain ⟨inside, counted⟩ := resolves
  have same : (if index.toInt < 0 then index.toInt + length else index.toInt) = place := by
    rw [counted]
    split <;> split <;> omega
  have bounds : 0 ≤ (place : Int) ∧ (place : Int) < length := by omega
  simp only [place?_eq short, same, bounds, and_self, if_true, Int.toNat_natCast]

theorem place?_eq_none {index : Int64} (short : length < 2 ^ 63)
    (outside : ¬InBounds length index.toInt) : place? length (.int index) = none := by
  have beyond : ¬(0 ≤ (if index.toInt < 0 then index.toInt + length else index.toInt) ∧
      (if index.toInt < 0 then index.toInt + length else index.toInt) < length) := by
    rw [InBounds] at outside
    split <;> omega
  simp only [place?_eq short, beyond, if_false]

end

/-! ### Operators at a place -/

section

variable {list : List Value} {index : Int64} {place : Nat} (short : list.length < 2 ^ 63)
include short

theorem div_list (resolves : Resolves list.length index.toInt place) :
    ∃ element, list[place]? = some element ∧
      div (.list list) (.number (.int index)) = .ok element := by
  obtain ⟨element, found⟩ : ∃ element, list[place]? = some element :=
    ⟨_, List.getElem?_eq_getElem resolves.inside⟩
  refine ⟨element, found, ?_⟩
  simp only [div, place?_of_resolves short resolves, Option.bind_some, found]

theorem sub_list (resolves : Resolves list.length index.toInt place) :
    sub (.list list) (.number (.int index))
      = .ok (.list (list.take place ++ list.drop (place + 1))) := by
  simp only [sub, place?_of_resolves short resolves, List.eraseIdx_eq_take_drop_succ]

theorem outOfBounds (outside : ¬InBounds list.length index.toInt) :
    div (.list list) (.number (.int index)) = .error .indexOutOfBounds ∧
      sub (.list list) (.number (.int index)) = .error .indexOutOfBounds := by
  simp only [div, sub, place?_eq_none short outside, Option.bind_none, and_self]

end

/-- The last index stands for the place of an element put behind a list. -/
theorem resolves_last (list : List Value) (value : Value) :
    Resolves (list ++ [value]).length (-1 : Int64).toInt list.length := by
  have last : (-1 : Int64).toInt = -1 := rfl
  rw [last, List.length_append, List.length_singleton]
  refine ⟨Nat.lt_succ_self _, ?_⟩
  rw [if_neg (by decide)]
  omega

/-- Lists are sequences with indexes from either end. In bounds, an index has a place, at which an element
is taken or left out; out of bounds, neither is done. The last element is the one appended last, and the
elements of two lists that are joined are those of the one and then those of the other. No sum of a
negative index and a length leaves 64 bits. -/
theorem lists_are_sequences {l m : List Value} (short : l.length < 2 ^ 62)
    (short' : m.length < 2 ^ 62) (v : Value) (i : Int64) :
    let index : Value := .number (.int i)
    let last : Value := .number (.int (-1))
    (InBounds l.length i.toInt → ∃ k element, Resolves l.length i.toInt k ∧
      l[k]? = some element ∧ div (.list l) index = .ok element ∧
      sub (.list l) index = .ok (.list (l.take k ++ l.drop (k + 1)))) ∧
    (¬InBounds l.length i.toInt → div (.list l) index = .error .indexOutOfBounds ∧
      sub (.list l) index = .error .indexOutOfBounds) ∧
    (add (.list l) v >>= (div · last)) = .ok v ∧
    (add (.list l) v >>= (sub · last)) = .ok (.list l) ∧
    (InBounds (l.length + m.length) i.toInt → ∃ k element,
      Resolves (l.length + m.length) i.toInt k ∧ (l ++ m)[k]? = some element ∧
      (mul (.list l) (.list m) >>= (div · index)) = .ok element) ∧
    ∀ length ∈ [l.length, l.length + 1, l.length + m.length], ∀ j : Int64, j.toInt < 0 →
      (j + Int64.ofNat length).toInt = j.toInt + length := by
  intro index last
  have fits : l.length < 2 ^ 63 := by omega
  have fits' : (l ++ [v]).length < 2 ^ 63 := by
    rw [List.length_append, List.length_singleton]
    omega
  refine ⟨?_, outOfBounds fits, ?_, ?_, ?_, ?_⟩
  · intro inBounds
    obtain ⟨k, resolves⟩ := inBounds.exists_resolves
    obtain ⟨element, found, taken⟩ := div_list fits resolves
    exact ⟨k, element, resolves, found, taken, sub_list fits resolves⟩
  · obtain ⟨element, found, taken⟩ := div_list fits' (resolves_last l v)
    rw [List.getElem?_concat_length, Option.some.injEq] at found
    subst found
    exact taken
  · have left := sub_list fits' (resolves_last l v)
    rw [List.take_left, List.drop_eq_nil_of_le (by simp), List.append_nil] at left
    exact left
  · have joined : (l ++ m).length < 2 ^ 63 := by
      rw [List.length_append]
      omega
    rw [← List.length_append]
    intro inBounds
    obtain ⟨k, resolves⟩ := inBounds.exists_resolves
    obtain ⟨element, found, taken⟩ := div_list joined resolves
    exact ⟨k, element, resolves, found, taken⟩
  · intro length member j negative
    apply toInt_add_length negative
    simp only [List.mem_cons, List.not_mem_nil, or_false] at member
    omega

/-- The index -2 in a list of two elements, and in the same list joined with another. -/
theorem lists_are_sequences_joined :
    let l : List Value := [.string "a", .string "b"]
    let m : List Value := [.list []]
    let index : Value := .number (.int (-2))
    l.length < 2 ^ 62 ∧ m.length < 2 ^ 62 ∧ div (.list l) index = .ok (.string "a") ∧
      sub (.list l) index = .ok (.list [.string "b"]) ∧
      (mul (.list l) (.list m) >>= (div · index)) = .ok (.string "b") := by
  intro l m index
  have short : l.length < 2 ^ 62 := by decide
  have short' : m.length < 2 ^ 62 := by decide
  obtain ⟨inside, -, -, -, joined, -⟩ := lists_are_sequences short short' .null (-2)
  obtain ⟨k, element, resolves, found, taken, left⟩ := inside (by decide)
  obtain ⟨k', element', resolves', found', taken'⟩ := joined (by decide)
  obtain rfl : k = 0 := Int.ofNat_inj.mp resolves.counted
  obtain rfl : k' = 1 := Int.ofNat_inj.mp resolves'.counted
  cases found
  cases found'
  exact ⟨short, short', taken, left, taken'⟩

end Primer.Value
