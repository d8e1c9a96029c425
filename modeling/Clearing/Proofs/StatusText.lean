import Clearing.Status
import Mathlib.Data.List.Basic

/-!
# Written statuses read back

What the store keeps of a status is its written form. It reads back for every
status without a count and for counts from 1 to 5; with any other count it is
written all the same, but reading refuses it.
-/

namespace Clearing

namespace Text

/-! ### Numbers in decimal -/

theorem le_ofDigitChars (cs : List Char) (acc : Nat) : acc ≤ Nat.ofDigitChars 10 cs acc := by
  induction cs generalizing acc with
  | nil => exact Nat.le_refl acc
  | cons c cs ih =>
    rw [Nat.ofDigitChars_cons]
    have hrest := ih (10 * acc + (c.toNat - '0'.toNat))
    omega

theorem digits_eq {limit : Nat} (outside : IntegerFault) {cs : List Char}
    (hcs : ∀ c ∈ cs, c.isDigit = true) {acc : Nat} (hacc : acc ≤ limit) :
    digits limit outside acc cs =
      if Nat.ofDigitChars 10 cs acc ≤ limit then .ok (Nat.ofDigitChars 10 cs acc)
      else .error outside := by
  induction cs generalizing acc with
  | nil => rw [Nat.ofDigitChars_nil, if_pos hacc, digits]
  | cons c cs ih =>
    have hc : c.isDigit = true := hcs c List.mem_cons_self
    have hrest : ∀ c ∈ cs, c.isDigit = true := fun c h => hcs c (List.mem_cons_of_mem _ h)
    have hvalue : 10 * acc + digitValue c = 10 * acc + (c.toNat - '0'.toNat) := rfl
    rw [Nat.ofDigitChars_cons, ← hvalue, digits, if_pos hc]
    by_cases hover : limit < 10 * acc + digitValue c
    · -- the value only grows from here
      have hgrows := le_ofDigitChars cs (10 * acc + digitValue c)
      rw [if_pos hover, if_neg (by omega)]
    · rw [if_neg hover]
      exact ih hrest (by omega)

theorem digits_toDigits (limit : Nat) (outside : IntegerFault) (n : Nat) :
    digits limit outside 0 (Nat.toDigits 10 n) = if n ≤ limit then .ok n else .error outside := by
  have hdigits : ∀ c ∈ Nat.toDigits 10 n, c.isDigit = true := fun c hc =>
    Nat.isDigit_of_mem_toDigits (by decide) (by decide) hc
  rw [digits_eq outside hdigits (Nat.zero_le limit), Nat.ofDigitChars_ten_toDigits]

theorem toList_toString (n : Int) :
    (toString n).toList =
      if n < 0 then '-' :: Nat.toDigits 10 n.natAbs else Nat.toDigits 10 n.natAbs := by
  cases n with
  | ofNat m =>
    have hstr : toString (Int.ofNat m) = toString m := rfl
    have hneg : ¬ Int.ofNat m < 0 := Int.not_lt.mpr (Int.natCast_nonneg m)
    rw [hstr, Nat.toString_eq_ofList_toDigits, String.toList_ofList, if_neg hneg]
    rfl
  | negSucc m =>
    have hstr : toString (Int.negSucc m) = "-" ++ toString (m + 1) := rfl
    have hneg : Int.negSucc m < 0 := Int.negSucc_lt_zero m
    rw [hstr, if_pos hneg, String.toList_append, Nat.toString_eq_ofList_toDigits]
    exact congrArg ('-' :: ·) String.toList_ofList

theorem isDigit_or_minus {n : Int} {c : Char} (hc : c ∈ (toString n).toList) :
    c.isDigit = true ∨ c = '-' := by
  have hdigit : ∀ m, c ∈ Nat.toDigits 10 m → c.isDigit = true := fun m hm =>
    Nat.isDigit_of_mem_toDigits (by decide) (by decide) hm
  rw [toList_toString] at hc
  split at hc
  · rcases List.mem_cons.mp hc with rfl | hc
    · exact .inr rfl
    · exact .inl (hdigit _ hc)
  · exact .inl (hdigit _ hc)

theorem integer?_toString (limit : Nat) (n : Int) :
    integer? limit (toString n).toList =
      if n < 0 then if n.natAbs ≤ limit + 1 then .ok n else .error .tooSmall
      else if n.natAbs ≤ limit then .ok n else .error .tooLarge := by
  have hne : Nat.toDigits 10 n.natAbs ≠ [] := Nat.toDigits_ne_nil
  rw [toList_toString]
  by_cases hneg : n < 0
  · rw [if_pos hneg, if_pos hneg, integer?]
    · rw [digits_toDigits]
      split
      · have hn : -(n.natAbs : Int) = n := by omega
        exact congrArg Except.ok hn
      · rfl
    · exact fun h => hne h
  · rw [if_neg hneg, if_neg hneg]
    cases hd : Nat.toDigits 10 n.natAbs with
    | nil => exact absurd hd hne
    | cons c cs =>
      have hc : c.isDigit = true :=
        Nat.isDigit_of_mem_toDigits (by decide) (by decide) (hd ▸ List.mem_cons_self)
      have hplus : c ≠ '+' := fun h => by simp [h] at hc
      have hminus : c ≠ '-' := fun h => by simp [h] at hc
      rw [integer?, ← hd, digits_toDigits]
      · split
        · have hn : Int.ofNat n.natAbs = n := by
            rw [Int.ofNat_eq_natCast]
            omega
          exact congrArg Except.ok hn
        · rfl
      all_goals simp [hplus, hminus]

theorem isBlank_of_digit {c : Char} (hc : c.isDigit = true) : isBlank c = false := by
  have hrange := Char.isDigit_iff_toNat.mp hc
  have h0 : '0'.toNat = 48 := rfl
  have h9 : '9'.toNat = 57 := rfl
  unfold isBlank
  simp only [Bool.or_eq_false_iff, Bool.and_eq_false_iff, decide_eq_false_iff_not,
    beq_eq_false_iff_ne]
  omega

theorem trimChars_toString (n : Int) :
    trimChars (toString n).toList = (toString n).toList := by
  have hblank : ∀ c ∈ (toString n).toList, isBlank c = false := by
    intro c hc
    rcases isDigit_or_minus hc with hd | rfl
    · exact isBlank_of_digit hd
    · rfl
  exact trimChars_eq_self (fun c hc => hblank c (List.mem_of_mem_head? hc))
    (fun c hc => hblank c (List.mem_of_mem_getLast? hc))

end Text

namespace Status

/-! ### Statuses -/

/-- The count of a status, if it has one, is from 1 to 5. -/
def InWindow : Status → Prop
  | .confirming n => 1 ≤ n ∧ n ≤ 5
  | _ => True

instance : DecidablePred InWindow
  | .confirming n => inferInstanceAs (Decidable (1 ≤ n ∧ n ≤ 5))
  | .waiting | .pending | .confirmed | .completed | .failed => isTrue trivial

theorem count?_written (n : Int) :
    count? ("pending_confirmation (".toList ++ (toString n).toList ++ "/6)".toList) =
      if 1 ≤ n ∧ n ≤ 5 then some n else none := by
  have hrest : "pending_confirmation (".toList.isPrefixOf?
      ("pending_confirmation (".toList ++ (toString n).toList ++ "/6)".toList) =
        some ((toString n).toList ++ "/6)".toList) := by
    rw [List.isPrefixOf?_eq_some_iff_append_eq, List.append_assoc]
  have hinner : [')'].isSuffixOf? ((toString n).toList ++ "/6)".toList) =
      some ((toString n).toList ++ ['/', '6']) := by
    rw [List.isSuffixOf?_eq_some_iff_append_eq, List.append_assoc]
    rfl
  have hslash : ∀ c ∈ (toString n).toList, (c != '/') = true := by
    intro c hc
    rcases Text.isDigit_or_minus hc with hd | rfl
    · rw [bne_iff_ne]
      rintro rfl
      simp at hd
    · rfl
  have hbefore : beforeSlash? ((toString n).toList ++ ['/', '6']) = some (toString n).toList := by
    rw [beforeSlash?, if_pos (by simp), List.takeWhile_append_of_pos hslash]
    exact congrArg some (List.append_nil _)
  have htrim := Text.trimChars_toString n
  have hread := Text.integer?_toString maxInt64 n
  have hmax : maxInt64 = 9223372036854775807 := rfl
  have hfinal : finalDepth = 6 := rfl
  simp only [count?, hrest, hinner, hbefore, htrim, hread, Option.bind_eq_bind, Option.bind_some]
  by_cases hwin : 1 ≤ n ∧ n ≤ 5
  · have hpos : ¬ n < 0 := by omega
    have hfits : n.natAbs ≤ maxInt64 := by omega
    have hin : 1 ≤ n ∧ n < finalDepth := by omega
    rw [if_neg hpos, if_pos hfits, if_pos hwin]
    exact if_pos hin
  · have hout : ¬ (1 ≤ n ∧ n < finalDepth) := by omega
    rw [if_neg hwin]
    split
    · split
      · exact if_neg hout
      · rfl
    · split
      · exact if_neg hout
      · rfl

theorem toList_text_confirming (n : Int) :
    (confirming n).text.toList =
      "pending_confirmation (".toList ++ (toString n).toList ++ "/6)".toList := by
  have hfinal : toString finalDepth = "6" := by decide
  have hwritten : (confirming n).text =
      "pending_confirmation (" ++ toString n ++ "/" ++ "6" ++ ")" :=
    congrArg ("pending_confirmation (" ++ toString n ++ "/" ++ · ++ ")") hfinal
  have htail : "/6)".toList = "/".toList ++ ("6".toList ++ ")".toList) := by decide
  simp only [hwritten, htail, String.toList_append, List.append_assoc]

theorem ofWord?_of_bracket {cs : List Char} (h : cs.getLast? = some ')') : ofWord? cs = none := by
  have hne : ∀ w : List Char, w.getLast? ≠ some ')' → cs ≠ w := by
    intro w hw he
    exact hw (he ▸ h)
  unfold ofWord?
  repeat rw [if_neg (hne _ (by decide))]

/-- The written form of a status with a count is no single word, and has no
blank at its ends. -/
theorem ofChars?_confirming (n : Int) :
    ofChars? (confirming n).text.toList =
      (if 1 ≤ n ∧ n ≤ 5 then some n else none).map confirming := by
  have htext := toList_text_confirming n
  have hhead : (confirming n).text.toList.head? = some 'p' := by
    rw [htext]
    rfl
  have hlast : (confirming n).text.toList.getLast? = some ')' := by
    rw [htext, List.getLast?_append]
    rfl
  have htrim : Text.trimChars (confirming n).text.toList = (confirming n).text.toList := by
    refine Text.trimChars_eq_self (fun c hc => ?_) (fun c hc => ?_)
    · rw [hhead] at hc
      cases hc
      rfl
    · rw [hlast] at hc
      cases hc
      rfl
  rw [ofChars?, htrim, ofWord?_of_bracket hlast, htext, count?_written]

theorem parse_of_word {s : Status} (h : ofWord? (Text.trimChars s.text.toList) = some s) :
    parse s.text = .ok s := by
  rw [parse, ofChars?, h]

/-- **A written status reads back** as itself if its count, should it have one,
is from 1 to 5, and does not read back at all otherwise. -/
theorem parse_text (s : Status) :
    parse s.text = if s.InWindow then .ok s else .error ⟨s.text⟩ := by
  cases s with
  | waiting => exact (parse_of_word (by decide)).trans (if_pos trivial).symm
  | pending => exact (parse_of_word (by decide)).trans (if_pos trivial).symm
  | confirmed => exact (parse_of_word (by decide)).trans (if_pos trivial).symm
  | completed => exact (parse_of_word (by decide)).trans (if_pos trivial).symm
  | failed => exact (parse_of_word (by decide)).trans (if_pos trivial).symm
  | confirming n =>
    have hwindow : (confirming n).InWindow ↔ 1 ≤ n ∧ n ≤ 5 := Iff.rfl
    rw [parse, ofChars?_confirming]
    by_cases h : 1 ≤ n ∧ n ≤ 5
    · rw [if_pos h, if_pos (hwindow.mpr h)]
      rfl
    · rw [if_neg h, if_neg (mt hwindow.mp h)]
      rfl

/-! ### What is read or seen reads back -/

theorem inWindow_ofDepth (depth : Int) : (ofDepth depth).InWindow := by
  unfold ofDepth Confirmation.ofDepth
  by_cases hfinal : finalDepth ≤ depth
  · rw [if_pos hfinal]
    trivial
  · rw [if_neg hfinal]
    by_cases hmined : 0 < depth
    · rw [if_pos hmined]
      have hlt : depth < 6 := Int.not_le.mp hfinal
      exact ⟨by omega, by omega⟩
    · rw [if_neg hmined]
      trivial

theorem inWindow_of_word {cs : List Char} {s : Status} (h : ofWord? cs = some s) :
    s.InWindow := by
  unfold ofWord? at h
  repeat
    split at h
    · cases h
      decide
  cases h

theorem inWindow_of_count {cs : List Char} {n : Int} (h : count? cs = some n) :
    (confirming n).InWindow := by
  unfold count? at h
  simp only [Option.bind_eq_bind, Option.bind_eq_some_iff] at h
  obtain ⟨rest, -, inner, -, written, -, m, -, h⟩ := h
  split at h
  · rename_i hm
    cases h
    have hlt : n < 6 := hm.2
    exact ⟨hm.1, by omega⟩
  · cases h

theorem inWindow_of_parse {text : String} {s : Status} (h : parse text = .ok s) :
    s.InWindow := by
  unfold parse ofChars? at h
  cases hword : ofWord? (Text.trimChars text.toList) with
  | some s' =>
    rw [hword] at h
    cases h
    exact inWindow_of_word hword
  | none =>
    rw [hword] at h
    cases hcount : count? (Text.trimChars text.toList) with
    | none =>
      rw [hcount] at h
      cases h
    | some n =>
      rw [hcount] at h
      cases h
      exact inWindow_of_count hcount

end Status
end Clearing
