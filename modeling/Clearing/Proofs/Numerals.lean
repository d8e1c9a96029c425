import Clearing.Proofs.StatusText

/-!
# Which texts are numbers

A number is one or more decimal digits. A natural number may have a plus sign
before them, an integer a minus sign as well. A reader goes through the digits
from the left and gives up as soon as the value is over the limit. Since the
value only grows from digit to digit, it accepts exactly the numbers within the
limit, however many zeros they begin with.
-/

namespace Clearing.Text

/-- One or more digits, and the number that they write. -/
structure Digits (cs : List Char) (n : Nat) : Prop where
  filled : cs ≠ []
  digits : ∀ c ∈ cs, c.isDigit = true
  value : Nat.ofDigitChars 10 cs 0 = n

inductive Unsigned : List Char → Nat → Prop
  | bare {cs n} (h : Digits cs n) : Unsigned cs n
  | plus {cs n} (h : Digits cs n) : Unsigned ('+' :: cs) n

inductive Signed : List Char → Int → Prop
  | unsigned {cs n} (h : Unsigned cs n) : Signed cs n
  | minus {cs n} (h : Digits cs n) : Signed ('-' :: cs) (-(n : Int))

variable {limit n : Nat} {outside : IntegerFault} {cs : List Char}

theorem Digits.head {c : Char} (h : Digits (c :: cs) n) : c ≠ '+' ∧ c ≠ '-' := by
  have hc : c.isDigit = true := h.digits c List.mem_cons_self
  constructor
  · rintro rfl
    cases hc
  · rintro rfl
    cases hc

theorem forall_isDigit_of_digits {acc : Nat} (h : digits limit outside acc cs = .ok n) :
    ∀ c ∈ cs, c.isDigit = true := by
  induction cs generalizing acc with
  | nil => exact fun c hc => by cases hc
  | cons c cs ih =>
    rw [digits] at h
    split at h
    · rename_i hc
      split at h
      · cases h
      · intro c' hc'
        rcases List.mem_cons.mp hc' with rfl | hc'
        · exact hc
        · exact ih h c' hc'
    · cases h

theorem digits_eq_ok {acc : Nat} (hacc : acc ≤ limit) :
    digits limit outside acc cs = .ok n ↔
      (∀ c ∈ cs, c.isDigit = true) ∧ Nat.ofDigitChars 10 cs acc = n ∧ n ≤ limit := by
  constructor
  · intro h
    have hdigits := forall_isDigit_of_digits h
    rw [digits_eq outside hdigits hacc] at h
    split at h
    · rename_i hle
      cases h
      exact ⟨hdigits, rfl, hle⟩
    · cases h
  · rintro ⟨hdigits, rfl, hle⟩
    rw [digits_eq outside hdigits hacc, if_pos hle]

theorem digits_eq_ok_of_filled (hcs : cs ≠ []) :
    digits limit outside 0 cs = .ok n ↔ Digits cs n ∧ n ≤ limit := by
  rw [digits_eq_ok (Nat.zero_le limit)]
  exact ⟨fun ⟨hdigits, hvalue, hle⟩ => ⟨⟨hcs, hdigits, hvalue⟩, hle⟩,
    fun ⟨h, hle⟩ => ⟨h.digits, h.value, hle⟩⟩

theorem natural?_eq_ok : natural? limit cs = .ok n ↔ Unsigned cs n ∧ n ≤ limit := by
  constructor
  · intro h
    unfold natural? at h
    split at h
    · cases h
    · cases h
    · rename_i rest hrest
      obtain ⟨hdigits, hle⟩ := (digits_eq_ok_of_filled fun hnil => hrest hnil).mp h
      exact ⟨.plus hdigits, hle⟩
    · rename_i hne _ _
      obtain ⟨hdigits, hle⟩ := (digits_eq_ok_of_filled fun hnil => hne hnil).mp h
      exact ⟨.bare hdigits, hle⟩
  · rintro ⟨hu, hle⟩
    cases hu with
    | bare h =>
      cases cs with
      | nil => exact absurd rfl h.filled
      | cons c cs =>
        rw [natural?]
        · exact (digits_eq_ok_of_filled h.filled).mpr ⟨h, hle⟩
        all_goals simp [h.head.1]
    | plus h =>
      rw [natural?]
      · exact (digits_eq_ok_of_filled h.filled).mpr ⟨h, hle⟩
      · exact fun hnil => h.filled hnil

theorem integer?_of_not_minus (h : cs.head? ≠ some '-') :
    integer? limit cs = (natural? limit cs).map Int.ofNat := by
  cases cs with
  | nil => rfl
  | cons c rest =>
    by_cases hplus : c = '+'
    · subst hplus
      cases rest <;> rfl
    · have hminus : c ≠ '-' := fun hc => h (congrArg some hc)
      rw [integer?, natural?]
      all_goals simp [hplus, hminus]

theorem map_ofNat_eq_ok {r : Except IntegerFault Nat} {i : Int} :
    r.map Int.ofNat = .ok i ↔ ∃ m : Nat, r = .ok m ∧ (m : Int) = i := by
  cases r with
  | error e => simp [Except.map]
  | ok m => simp [Except.map]

/-- **An integer is read** exactly from its digits, with a sign or without, if it
is within the range. -/
theorem integer?_eq_ok {i : Int} :
    integer? limit cs = .ok i ↔ Signed cs i ∧ -(limit : Int) - 1 ≤ i ∧ i ≤ limit := by
  by_cases hminus : cs.head? = some '-'
  · obtain ⟨rest, rfl⟩ : ∃ rest, cs = '-' :: rest := by
      cases cs with
      | nil => cases hminus
      | cons c rest => exact ⟨rest, by rw [Option.some.inj hminus]⟩
    have hsigned : Signed ('-' :: rest) i ↔ ∃ m : Nat, Digits rest m ∧ i = -(m : Int) := by
      constructor
      · intro h
        cases h with
        | unsigned h =>
          cases h with
          | bare h => exact absurd rfl h.head.2
        | minus h => exact ⟨_, h, rfl⟩
      · rintro ⟨m, h, rfl⟩
        exact .minus h
    cases rest with
    | nil =>
      have hnone : ∀ m, ¬ Digits [] m := fun m h => h.filled rfl
      simp [integer?, hsigned, hnone]
    | cons c rest =>
      have hread : integer? limit ('-' :: c :: rest) =
          (digits (limit + 1) .tooSmall 0 (c :: rest)).map fun m => -(m : Int) := rfl
      rw [hread, hsigned]
      constructor
      · intro h
        cases hd : digits (limit + 1) .tooSmall 0 (c :: rest) with
        | error e =>
          rw [hd] at h
          cases h
        | ok m =>
          rw [hd] at h
          obtain ⟨hdigits, hle⟩ := (digits_eq_ok_of_filled (List.cons_ne_nil c rest)).mp hd
          have hi : -(m : Int) = i := Except.ok.inj h
          exact ⟨⟨m, hdigits, hi.symm⟩, by omega, by omega⟩
      · rintro ⟨⟨m, hdigits, rfl⟩, hlow, -⟩
        have hle : m ≤ limit + 1 := by omega
        rw [(digits_eq_ok_of_filled (List.cons_ne_nil c rest)).mpr ⟨hdigits, hle⟩]
        rfl
  · rw [integer?_of_not_minus hminus, map_ofNat_eq_ok]
    constructor
    · rintro ⟨m, hread, rfl⟩
      obtain ⟨hu, hle⟩ := natural?_eq_ok.mp hread
      exact ⟨.unsigned hu, by omega, by omega⟩
    · rintro ⟨hs, -, hle⟩
      cases hs with
      | unsigned h =>
        rename_i m
        exact ⟨m, natural?_eq_ok.mpr ⟨h, by omega⟩, rfl⟩
      | minus h => exact absurd rfl hminus

end Clearing.Text
