import Clearing.Proofs.Numerals

/-!
# Which texts are statuses

What is left without the blanks around it is one of six words, or the word of a
status with a count and the count behind it in brackets, before a slash. What
stands between the slash and the last bracket is not looked at, and may have
slashes and brackets of its own.
-/

namespace Clearing

theorem Text.toList_trim (s : String) : (Text.trim s).toList = Text.trimChars s.toList :=
  String.toList_ofList

namespace Status

/-- What a text without blanks around it says. -/
inductive Reads : String → Status → Prop
  | waiting : Reads "waiting" .waiting
  | pending : Reads "pending" .pending
  | uncounted : Reads "pending_confirmation" (.confirming 1)
  | counted {c d : String} {n : Int} (hslash : '/' ∉ c.toList)
      (hcount : Text.Signed (Text.trim c).toList n) (hwindow : 1 ≤ n ∧ n ≤ 5) :
      Reads ("pending_confirmation (" ++ c ++ "/" ++ d ++ ")") (.confirming n)
  | confirmed : Reads "confirmed" .confirmed
  | completed : Reads "completed" .completed
  | failed : Reads "failed" .failed

/-! ### With its count -/

theorem beforeSlash?_append {c : List Char} (d : List Char) (h : '/' ∉ c) :
    beforeSlash? (c ++ '/' :: d) = some c := by
  have hall : ∀ x ∈ c, (x != '/') = true := fun x hx => by
    rw [bne_iff_ne]
    rintro rfl
    exact h hx
  unfold beforeSlash?
  rw [if_pos (by simp), List.takeWhile_append_of_pos hall]
  exact congrArg some (List.append_nil c)

theorem beforeSlash?_eq_some {cs c : List Char} :
    beforeSlash? cs = some c ↔ '/' ∉ c ∧ ∃ d, cs = c ++ '/' :: d := by
  constructor
  · intro h
    have hmem : '/' ∈ cs := by
      by_contra hnot
      rw [beforeSlash?, if_neg hnot] at h
      cases h
    obtain ⟨c', d, rfl, hnot⟩ := List.eq_append_cons_of_mem hmem
    rw [beforeSlash?_append d hnot] at h
    cases h
    exact ⟨hnot, d, rfl⟩
  · rintro ⟨hnot, d, rfl⟩
    exact beforeSlash?_append d hnot

theorem count?_eq_some {cs : List Char} {n : Int} :
    count? cs = some n ↔ ∃ c d,
      cs = "pending_confirmation (".toList ++ c ++ '/' :: d ++ [')'] ∧ '/' ∉ c ∧
        Text.Signed (Text.trimChars c) n ∧ 1 ≤ n ∧ n ≤ 5 := by
  have hmax : maxInt64 = 9223372036854775807 := rfl
  have hfinal : finalDepth = 6 := rfl
  unfold count?
  simp only [Option.bind_eq_bind, Option.bind_eq_some_iff]
  constructor
  · rintro ⟨rest, hrest, inner, hinner, c, hc, m, hm, hn⟩
    rw [List.isPrefixOf?_eq_some_iff_append_eq] at hrest
    rw [List.isSuffixOf?_eq_some_iff_append_eq] at hinner
    obtain ⟨hslash, d, rfl⟩ := beforeSlash?_eq_some.mp hc
    have hread : Text.integer? maxInt64 (Text.trimChars c) = .ok m := by
      cases h : Text.integer? maxInt64 (Text.trimChars c) with
      | error e => rw [h] at hm; cases hm
      | ok k => rw [h] at hm; exact congrArg Except.ok (Option.some.inj hm)
    split at hn
    · rename_i hwin
      cases hn
      refine ⟨c, d, ?_, hslash, (Text.integer?_eq_ok.mp hread).1, hwin.1, by omega⟩
      rw [← hrest, ← hinner]
      simp
    · cases hn
  · rintro ⟨c, d, rfl, hslash, hsigned, hlow, hhigh⟩
    have hread : Text.integer? maxInt64 (Text.trimChars c) = .ok n :=
      Text.integer?_eq_ok.mpr ⟨hsigned, by omega, by omega⟩
    refine ⟨c ++ '/' :: d ++ [')'], ?_, c ++ '/' :: d, ?_, c, ?_, n, ?_, ?_⟩
    · rw [List.isPrefixOf?_eq_some_iff_append_eq]
      simp
    · rw [List.isSuffixOf?_eq_some_iff_append_eq]
    · exact beforeSlash?_eq_some.mpr ⟨hslash, d, rfl⟩
    · rw [hread]
      rfl
    · exact if_pos ⟨hlow, by omega⟩

/-! ### Every text -/

theorem reads_of_word {t : String} {s : Status} (h : ofWord? t.toList = some s) : Reads t s := by
  unfold ofWord? at h
  repeat
    split at h
    · rename_i hword
      rw [String.toList_inj] at hword
      cases h
      rw [hword]
      constructor
  cases h

theorem toList_counted (c d : String) :
    ("pending_confirmation (" ++ c ++ "/" ++ d ++ ")").toList =
      "pending_confirmation (".toList ++ c.toList ++ '/' :: d.toList ++ [')'] := by
  have hslash : "/".toList = ['/'] := rfl
  have hclose : ")".toList = [')'] := rfl
  simp only [String.toList_append, hslash, hclose, List.append_assoc, List.cons_append,
    List.nil_append]

theorem reads_of_count {t : String} {n : Int} (h : count? t.toList = some n) :
    Reads t (.confirming n) := by
  obtain ⟨c, d, ht, hslash, hsigned, hlow, hhigh⟩ := count?_eq_some.mp h
  have hc : (String.ofList c).toList = c := String.toList_ofList
  have hd : (String.ofList d).toList = d := String.toList_ofList
  have hwritten :
      t = "pending_confirmation (" ++ String.ofList c ++ "/" ++ String.ofList d ++ ")" := by
    rw [← String.toList_inj, ht, toList_counted, hc, hd]
  rw [hwritten]
  refine .counted ?_ ?_ ⟨hlow, hhigh⟩
  · rwa [hc]
  · rwa [Text.toList_trim, hc]

theorem count?_of_reads {c d : String} {n : Int} (hslash : '/' ∉ c.toList)
    (hcount : Text.Signed (Text.trim c).toList n) (hwindow : 1 ≤ n ∧ n ≤ 5) :
    let t := ("pending_confirmation (" ++ c ++ "/" ++ d ++ ")").toList
    ofWord? t = none ∧ count? t = some n := by
  intro t
  have ht : t = "pending_confirmation (".toList ++ c.toList ++ '/' :: d.toList ++ [')'] :=
    toList_counted c d
  rw [Text.toList_trim] at hcount
  refine ⟨ofWord?_of_bracket ?_, count?_eq_some.mpr ⟨_, _, ht, hslash, hcount, hwindow⟩⟩
  rw [ht]
  exact List.getLast?_concat

theorem parse_eq_ok {text : String} {s : Status} :
    parse text = .ok s ↔ Reads (Text.trim text) s := by
  have hparse : parse text = .ok s ↔ ofChars? text.toList = some s := by
    unfold parse
    cases ofChars? text.toList with
    | none => simp
    | some s' => simp
  rw [hparse]
  unfold ofChars?
  rw [← Text.toList_trim]
  generalize Text.trim text = t
  constructor
  · intro h
    cases hword : ofWord? t.toList with
    | some s' =>
      rw [hword] at h
      exact reads_of_word (hword.trans h)
    | none =>
      rw [hword] at h
      obtain ⟨n, hcount, rfl⟩ := Option.map_eq_some_iff.mp h
      exact reads_of_count hcount
  · intro h
    cases h with
    | counted hslash hcount hwindow =>
      obtain ⟨hword, hread⟩ := count?_of_reads hslash hcount hwindow
      rw [hword, hread]
      rfl
    | _ => decide

/-- **The reader of statuses accepts exactly its grammar**, and gives what the
text says. What it accepts reads back from its written form, and what it refuses
it gives back as it was. -/
theorem parse_exact (text : String) :
    (∀ s, parse text = .ok s ↔ Reads (Text.trim text) s) ∧
    (∀ s, parse text = .ok s → parse s.text = .ok s) ∧
    ((∀ s, ¬ Reads (Text.trim text) s) → parse text = .error ⟨text⟩) := by
  refine ⟨fun s => parse_eq_ok, fun s h => ?_, fun h => ?_⟩
  · rw [parse_text, if_pos (inWindow_of_parse h)]
  · unfold parse
    cases hread : ofChars? text.toList with
    | none => rfl
    | some s => exact absurd (parse_eq_ok.mp (by rw [parse, hread])) (h s)

end Status
end Clearing
