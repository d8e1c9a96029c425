import Clearing.Desk.Delivery

/-!
# Which signatures are good

A signature is the digest written in hexadecimal. A text reads as some bytes
exactly if it is their written form once its letters are in lower case, so the
signature that is made is the only one that is good, but for letter case and
the blanks around it. A delivery without a good one is refused before its body
is looked at.
-/

namespace Clearing

namespace Text

theorem toNat_toLower (c : Char) :
    c.toLower.toNat = if 65 ≤ c.toNat ∧ c.toNat ≤ 90 then c.toNat + 32 else c.toNat := by
  have hupper : (c.val ≥ 'A'.val ∧ c.val ≤ 'Z'.val) ↔ 65 ≤ c.toNat ∧ c.toNat ≤ 90 :=
    and_congr UInt32.le_iff_toNat_le UInt32.le_iff_toNat_le
  unfold Char.toLower
  by_cases h : c.val ≥ 'A'.val ∧ c.val ≤ 'Z'.val
  · rw [dif_pos h, if_pos (hupper.mp h)]
    have hle : c.toNat ≤ 90 := (hupper.mp h).2
    show (c.val + ('a'.val - 'A'.val)).toNat = c.val.toNat + 32
    have hshift : ('a'.val - 'A'.val).toNat = 32 := rfl
    rw [UInt32.toNat_add, hshift]
    exact Nat.mod_eq_of_lt (Nat.lt_of_le_of_lt (Nat.add_le_add_right hle 32) (by decide))
  · rw [dif_neg h, if_neg (mt hupper.mpr h)]

namespace Hex

theorem toNat_digit : ∀ n < 16, (digit n).toNat = if n < 10 then 48 + n else 87 + n := by
  decide

theorem value?_eq_some {c : Char} {n : Nat} :
    value? c = some n ↔ n < 16 ∧ c.toLower = digit n := by
  have hlower := toNat_toLower c
  have hvalue : value? c = some n ↔
      n < 16 ∧ c.toLower.toNat = if n < 10 then 48 + n else 87 + n := by
    unfold value?
    grind
  rw [hvalue]
  refine and_congr_right fun hn => ?_
  rw [← toNat_digit n hn, Char.toNat_inj]

theorem decodeChars?_eq_some {cs : List Char} {bs : List UInt8} :
    decodeChars? cs = some bs ↔ cs.map Char.toLower = encodeChars bs := by
  constructor
  · intro h
    fun_induction decodeChars? cs generalizing bs with
    | case1 =>
      cases h
      rfl
    | case2 c => cases h
    | case3 a b cs ih =>
      simp only [Option.bind_eq_bind, Option.bind_eq_some_iff, Option.pure_def] at h
      obtain ⟨x, hx, y, hy, rest, hrest, h⟩ := h
      cases h
      obtain ⟨hx16, hxa⟩ := value?_eq_some.mp hx
      obtain ⟨hy16, hyb⟩ := value?_eq_some.mp hy
      have hbyte : (UInt8.ofNat (16 * x + y)).toNat = 16 * x + y := by
        rw [UInt8.toNat_ofNat']
        omega
      have hhigh : (16 * x + y) / 16 = x := by omega
      have hlow : (16 * x + y) % 16 = y := by omega
      rw [List.map_cons, List.map_cons, encodeChars, hbyte, hhigh, hlow, hxa, hyb, ih hrest]
  · intro h
    induction bs generalizing cs with
    | nil =>
      rw [List.map_eq_nil_iff.mp h]
      rfl
    | cons byte bs ih =>
      obtain ⟨a, cs, rfl, ha, h⟩ := List.map_eq_cons_iff.mp h
      obtain ⟨b, cs, rfl, hb, h⟩ := List.map_eq_cons_iff.mp h
      have hbyte : byte.toNat < 256 := byte.toNat_lt
      have hx := value?_eq_some.mpr ⟨(by omega : byte.toNat / 16 < 16), ha⟩
      have hy := value?_eq_some.mpr ⟨(by omega : byte.toNat % 16 < 16), hb⟩
      have hwhole : 16 * (byte.toNat / 16) + byte.toNat % 16 = byte.toNat := by omega
      simp only [decodeChars?, hx, hy, ih h, Option.bind_eq_bind, Option.bind_some, hwhole,
        UInt8.ofNat_toNat, Option.pure_def]

end Hex
end Text

namespace Webhook

theorem verify_iff {secret body : List UInt8} {signature : String} :
    verify secret body signature = true ↔ Text.lower (Text.trim signature) = sign secret body := by
  unfold verify sign Text.lower Text.Hex.decode? Text.Hex.encode
  rw [beq_iff_eq, Text.Hex.decodeChars?_eq_some, String.ofList_inj]

theorem Payload.read_eq_error {body : List UInt8} {fault : WebhookFault}
    (h : Payload.read body = .error fault) : ∃ reason, fault = .malformed reason := by
  unfold Payload.read at h
  split at h
  · cases h
    exact ⟨_, rfl⟩
  · split at h
    · cases h
      exact ⟨_, rfl⟩
    · cases h

end Webhook

def WebhookFault.IsOfSignature (fault : WebhookFault) : Prop :=
  fault = .missingSignature ∨ fault = .invalidSignature

namespace Desk

variable {d : Desk} {body : List UInt8} {fault : WebhookFault}

theorem authenticate_none : d.authenticate none body = .error .missingSignature := rfl

theorem authenticate_some (text : String) :
    d.authenticate (some text) body =
      if Text.lower (Text.trim text) = Webhook.sign d.options.secret body then .ok ()
      else .error .invalidSignature := by
  unfold authenticate
  simp only [Webhook.verify_iff]

theorem checkAddress_eq_error {payload : Webhook.Payload}
    (h : d.checkAddress payload = .error fault) : ¬ fault.IsOfSignature := by
  unfold checkAddress at h
  split at h
  · cases h
  · split at h
    · cases h
      rintro (hf | hf) <;> cases hf
    · split at h
      · cases h
      · cases h
        rintro (hf | hf) <;> cases hf

/-- What is refused by its signature is refused before the body is read. -/
theorem deliver_of_unauthenticated {signature : Option String}
    (h : d.authenticate signature body = .error fault) :
    d.deliver signature body = (.error fault, d) := by
  unfold deliver requestedUpdate
  rw [h]
  rfl

theorem deliver_of_authenticated {signature : Option String}
    (h : d.authenticate signature body = .ok ()) :
    ∀ fault, (d.deliver signature body).1 = .error fault → ¬ fault.IsOfSignature := by
  intro fault hfault
  unfold deliver requestedUpdate at hfault
  rw [h] at hfault
  cases hread : Webhook.Payload.read body with
  | error f =>
    rw [hread] at hfault
    cases hfault
    obtain ⟨reason, rfl⟩ := Webhook.Payload.read_eq_error hread
    rintro (hf | hf) <;> cases hf
  | ok payload =>
    rw [hread] at hfault
    cases hcheck : d.checkAddress payload with
    | error f =>
      simp only [hcheck, bind, Except.bind] at hfault
      cases hfault
      exact checkAddress_eq_error hcheck
    | ok _ =>
      simp only [hcheck, bind, Except.bind, pure, Except.pure] at hfault
      generalize (d.update (.ofWebhook payload.paymentId payload.status)).1 = answer at hfault
      cases answer with
      | error f =>
        cases hfault
        rintro (hf | hf) <;> cases hf
      | ok outcome => cases hfault

/-- **The signature decides first.** Under every secret, a text is a good
signature of a body exactly if it is the one that is made, but for letter case
and the blanks around it. A delivery without a signature, or without a good one,
is refused with that as its fault whatever its body, and leaves the desk as it
was; one with a good signature is never refused with either fault. -/
theorem signature_decides (d : Desk) (body : List UInt8) :
    (∀ secret text, Webhook.verify secret body text = true ↔
      Text.lower (Text.trim text) = Webhook.sign secret body) ∧
    d.deliver none body = (.error .missingSignature, d) ∧
    (∀ text, Text.lower (Text.trim text) ≠ Webhook.sign d.options.secret body →
      d.deliver (some text) body = (.error .invalidSignature, d)) ∧
    ∀ text, Text.lower (Text.trim text) = Webhook.sign d.options.secret body →
      ∀ fault, (d.deliver (some text) body).1 = .error fault → ¬ fault.IsOfSignature := by
  refine ⟨fun secret text => Webhook.verify_iff, ?_, fun text hbad => ?_, fun text hgood => ?_⟩
  · exact deliver_of_unauthenticated authenticate_none
  · exact deliver_of_unauthenticated ((authenticate_some text).trans (if_neg hbad))
  · exact deliver_of_authenticated ((authenticate_some text).trans (if_pos hgood))

end Desk
end Clearing
