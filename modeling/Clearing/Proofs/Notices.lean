import Clearing.Proofs.NoticeSteps
import Clearing.Proofs.Restart

/-!
# What is published of a transfer

An attempt publishes a transfer when it answers that the transfer is settled;
only one that has closed the transfer and stopped before it reported keeps the
notice back. A desk takes its attempts on one after the other, to where they
wait or are done. It is mirrored by a world with the same store and the same
notices, in which no attempt is left halfway.
-/

namespace Clearing

open Attempt

/-! ### The notices of deeds -/

def Deed.notice? (t : Nat) : Deed → Option Notice
  | .settled status => some { subject := .transfer, id := toString t, status := status.text }
  | _ => none

def Transfer.notices (r : Transfer) : List Notice :=
  if r.status = .pending then [] else [r.notice]

def Store.notices (s : Store) (t : Nat) : List Notice :=
  (s.transfers.get? t).elim [] Transfer.notices

theorem Transfer.notices_of_ne {r : Transfer} (h : r.status ≠ .pending) : r.notices = [r.notice] :=
  if_neg h

theorem Transfer.notices_of_pending {r : Transfer} (h : r.status = .pending) : r.notices = [] :=
  if_pos h

theorem Store.notices_of_some {s : Store} {t : Nat} {r : Transfer}
    (h : s.transfers.get? t = some r) : s.notices t = r.notices := by
  unfold notices
  rw [h]
  rfl

theorem Store.notices_of_none {s : Store} {t : Nat} (h : s.transfers.get? t = none) :
    s.notices t = [] := by
  unfold notices
  rw [h]
  rfl

theorem Attempt.notices_step (policy : Policy) {s : Store} (hs : s.Sound) (a : Attempt) :
    (a.step policy s).2.2 = ((a.deed? s).bind (Deed.notice? a.transfer)).toList := by
  obtain ⟨t, σ⟩ := a
  cases σ with
  | finishing status =>
    cases hr : s.transfers.get? t with
    | none =>
      simp only [step, deed?, stepStage, Store.setTransferStatus, Store.transfer_of_none hr]
      rfl
    | some r =>
      simp only [step, deed?, stepStage, Store.setTransferStatus_of_some hr, Transfer.notice,
        hs.transfer_id hr]
      rfl
  | reporting =>
    cases hr : s.transfers.get? t with
    | none =>
      simp only [step, deed?, stepStage, Store.transfer_of_none hr]
      rfl
    | some r =>
      simp only [step, deed?, stepStage, Store.transfer_eq_ok.mpr hr, Transfer.notice,
        hs.transfer_id hr]
      rfl
  | opening | claiming | debiting | crediting | refunding | counting | closing | asking | done =>
    simp only [step, deed?, stepStage]
    repeat' split
    all_goals first | rfl | simp [Deed.notice?]

theorem Moving.notices {r : Transfer} {ds : List Deed} {σ : Stage} (h : Moving r ds σ) (t : Nat) :
    ds.filterMap (Deed.notice? t) = [] := by
  cases h <;> rfl

/-- The attempt that has the latch has published what is stored, unless it has
still to report. -/
theorem Held.notices {r : Transfer} {ds : List Deed} {σ : Stage} (h : Held r ds σ) :
    ds.filterMap (Deed.notice? r.id) = r.notices ∨
      ds.filterMap (Deed.notice? r.id) = [] ∧ σ = .reporting := by
  cases h with
  | moving hs hm => exact .inl (by rw [hm.notices, Transfer.notices_of_pending hs])
  | settled hs hm =>
    left
    rw [List.filterMap_append, hm.notices, Transfer.notices_of_ne hm.status_ne]
    rfl
  | closed hs => exact .inr ⟨rfl, rfl⟩
  | reported hs =>
    left
    rw [Transfer.notices_of_ne (by rw [hs]; simp)]
    rfl

theorem Held.of_settled {r q : Transfer} {ds : List Deed}
    (h : Held r ds (.done (.ok (.settled q)))) : q = r ∧ r.status ≠ .pending := by
  cases h with
  | moving _ hm => cases hm
  | settled _ hm => exact ⟨rfl, hm.status_ne⟩
  | reported hfailed => exact ⟨rfl, by rw [hfailed]; simp⟩

theorem toString_inj {m n : Nat} (h : toString m = toString n) : m = n := by
  rw [Nat.toString_eq_ofList_toDigits, Nat.toString_eq_ofList_toDigits, String.ofList_inj] at h
  have hread := congrArg (Nat.ofDigitChars 10 · 0) h
  simpa only [Nat.ofDigitChars_ten_toDigits] using hread

/-! ### Along a run of attempts side by side -/

namespace World

variable {policy : Policy} {w : World} {t i : Nat} {a : Attempt}

def noticesAt (policy : Policy) (w : World) : Event → List Notice
  | .act i => (w.attempts[i]?).elim [] fun a => (a.step policy w.store).2.2
  | _ => []

def published (policy : Policy) (w : World) : List Event → List Notice
  | [] => []
  | e :: events => w.noticesAt policy e ++ (w.step policy e).published policy events

def notices (w : World) (t : Nat) : List Notice := (w.deeds t).filterMap (Deed.notice? t)

theorem notices_goOn (d : Option Deed) (τ : Stage) (store : Store) :
    (w.goOn i a d τ store).notices t = w.notices t ++
      (d.bind (Deed.notice? a.transfer)).toList.filter (Notice.isOf .transfer (toString t)) := by
  unfold notices
  rw [deeds_goOn, List.filterMap_append]
  congr 1
  cases d with
  | none => split <;> rfl
  | some d =>
    by_cases ht : a.transfer = t
    · -- a deed that needs no latch is not in the list, and publishes nothing
      subst ht
      rw [if_pos rfl]
      cases d <;> simp [Deed.binds, Deed.notice?, Notice.isOf, Option.filter]
    · rw [if_neg ht]
      have hid : ¬a.transfer.repr = t.repr := fun h => ht (toString_inj h)
      cases d <;> simp [Deed.notice?, Notice.isOf, hid]

theorem notices_step (policy : Policy) (hs : w.store.Sound) (e : Event) (t : Nat) :
    (w.step policy e).notices t =
      w.notices t ++ (w.noticesAt policy e).filter (Notice.isOf .transfer (toString t)) := by
  by_cases hact : ∃ i, e = .act i
  · obtain ⟨i, rfl⟩ := hact
    cases ha : w.attempts[i]? with
    | none => simp [step_act_none policy ha, noticesAt, ha]
    | some a =>
      have hnotices : w.noticesAt policy (.act i) = (a.step policy w.store).2.2 := by
        simp [noticesAt, ha]
      rw [step_act policy ha, notices_goOn, hnotices, Attempt.notices_step policy hs]
  · have hother : ∀ i, e ≠ .act i := fun i hi => hact ⟨i, hi⟩
    have hnone : w.noticesAt policy e = [] := by
      cases e with
      | act i => exact absurd rfl (hother i)
      | _ => rfl
    rw [hnone, notices, deeds_of_not_act policy w hother]
    exact (List.append_nil _).symm

theorem notices_run (policy : Policy) (hs : w.store.Sound) (events : List Event) (t : Nat) :
    (w.run policy events).notices t =
      w.notices t ++ (w.published policy events).filter (Notice.isOf .transfer (toString t)) := by
  induction events generalizing w with
  | nil => exact (List.append_nil _).symm
  | cons e events ih =>
    show ((w.step policy e).run policy events).notices t = _
    rw [ih (sound_step e hs), notices_step policy hs, published, List.filter_append,
      List.append_assoc]

/-- What is stored of a transfer has been published, unless its attempt has
still to report. -/
theorem Latched.notices_eq (hs : w.store.Sound) (h : w.Latched t) :
    w.notices t = w.store.notices t ∨
      w.notices t = [] ∧ ∃ i : Nat, w.attempts[i]? = some (Attempt.mk t .reporting) := by
  rcases h with hf | ⟨i, r, σ, htaken⟩
  · left
    rw [notices, hf.deeds]
    cases hr : w.store.transfers.get? t with
    | none => exact (Store.notices_of_none hr).symm
    | some r =>
      rw [Store.notices_of_some hr, Transfer.notices_of_pending (hf.row r hr).2]
      rfl
  · have hheld := htaken.held.notices
    rw [hs.transfer_id htaken.row] at hheld
    obtain hsame | ⟨hnone, rfl⟩ := hheld
    · exact .inl (hsame.trans (Store.notices_of_some htaken.row).symm)
    · exact .inr ⟨hnone, i, htaken.holder⟩

theorem Latched.notices_of_settled (hs : w.store.Sound) (h : w.Latched t) {q : Transfer}
    (ha : w.attempts[i]? = some (Attempt.mk t (.done (.ok (.settled q))))) :
    w.store.transfers.get? t = some q ∧ q.status ≠ .pending ∧ w.notices t = [q.notice] := by
  rcases h with hf | ⟨j, r, σ, htaken⟩
  · have hearly := hf.early ha rfl
    simp [Stage.holds] at hearly
  · obtain rfl : i = j := htaken.only ha rfl rfl
    have hσ : _ = σ := htaken.stage_eq ha
    obtain ⟨rfl, hne⟩ := (hσ ▸ htaken.held).of_settled
    obtain hnotices | ⟨-, hreporting⟩ := htaken.held.notices
    · rw [hs.transfer_id htaken.row, Transfer.notices_of_ne hne] at hnotices
      exact ⟨htaken.row, hne, hnotices⟩
    · rw [hreporting] at hσ
      cases hσ

/-! ### A desk in the mirror of a world -/

theorem run_acts (policy : Policy) (n : Nat) (ha : w.attempts[i]? = some a) :
    (w.run policy (.replicate n (.act i))).store = (a.steps policy n w.store).2.1 ∧
    (w.run policy (.replicate n (.act i))).attempts =
      w.attempts.set i (a.steps policy n w.store).1 ∧
    w.published policy (.replicate n (.act i)) = (a.steps policy n w.store).2.2 := by
  induction n generalizing w a with
  | zero =>
    refine ⟨rfl, ?_, rfl⟩
    obtain ⟨hi, rfl⟩ := List.getElem?_eq_some_iff.mp ha
    exact (List.set_getElem_self hi).symm
  | succ n ih =>
    have hstep := step_act policy ha
    have ha' : (w.step policy (.act i)).attempts[i]? = some (a.step policy w.store).1 := by
      rw [hstep]
      exact attempts_goOn_self ha
    obtain ⟨hstore, hattempts, hpublished⟩ := ih ha'
    rw [hstep] at hstore hattempts hpublished
    rw [List.replicate_succ]
    refine ⟨?_, ?_, ?_⟩
    · show ((w.step policy (.act i)).run policy _).store = _
      rw [hstep]
      exact hstore
    · show ((w.step policy (.act i)).run policy _).attempts = _
      rw [hstep]
      refine hattempts.trans ?_
      show (w.attempts.set i _).set i _ = _
      rw [List.set_set]
      rfl
    · rw [published, hstep, hpublished]
      simp only [noticesAt, ha]
      rfl

theorem Inv.join (hi : w.Inv) (ha : a.stage.isEarly = true) :
    Inv { w with attempts := w.attempts ++ [a] } where
  sound := hi.sound
  latched t := by
    refine (hi.latched t).frame rfl rfl (fun {j b} hb _ _ => ?_) (fun {j b} hb _ hholds => ?_)
    · exact (List.getElem?_append_left (List.getElem?_eq_some_iff.mp hb).1).trans hb
    · rw [List.getElem?_append] at hb
      split at hb
      · exact hb
      · rw [List.getElem?_singleton] at hb
        split at hb
        · rw [← Option.some.inj hb, Stage.holds_of_early ha] at hholds
          cases hholds
        · cases hb

/-- A world with the store and the notices of a desk, whose attempts all wait or
are done. -/
structure Mirrors (w : World) (d : Desk) : Prop where
  inv : w.Inv
  store : w.store = d.store
  rests : ∀ a ∈ w.attempts, a.stage.remaining = 0
  notices : ∀ t, w.notices t = d.noticesOf .transfer (toString t)

theorem Mirrors.start (options : Options) : empty.Mirrors (Desk.start options) where
  inv := inv_empty
  store := rfl
  rests a ha := by cases ha
  notices t := rfl

theorem Mirrors.noticesOf_eq {d : Desk} (h : w.Mirrors d) (t : Nat) :
    d.noticesOf .transfer (toString t) = d.store.notices t := by
  rw [← h.notices, ← h.store]
  obtain hsame | ⟨-, i, ha⟩ := (h.inv.latched t).notices_eq h.inv.sound
  · exact hsame
  · have hrests := h.rests _ (List.mem_of_getElem? ha)
    cases hrests

end World

namespace Desk

theorem store_apply_payments (d : Desk) (u : Update) :
    ∃ rows, (d.apply u).2.store = { d.store with payments := rows } := by
  rw [store_apply]
  cases hm : d.store.merge u with
  | error fault => exact ⟨d.store.payments, rfl⟩
  | ok q =>
    obtain ⟨o, store⟩ := q
    obtain ⟨p, -, -, rfl⟩ := Store.merge_eq_ok hm
    show ∃ rows, (if p.merged u = p then d.store else d.store.putPayment (p.merged u)) = _
    split
    · exact ⟨d.store.payments, rfl⟩
    · exact ⟨_, rfl⟩

theorem noticesOf_apply (d : Desk) (u : Update) (id : String) :
    (d.apply u).2.noticesOf .transfer id = d.noticesOf .transfer id := by
  obtain ⟨-, hn⟩ | ⟨p, -, ⟨-, hn⟩ | ⟨-, hn⟩⟩ := d.apply_cases u
  · exact noticesOf_congr hn .transfer id
  · exact noticesOf_congr hn .transfer id
  · rw [noticesOf_append hn, List.filter_cons_of_neg, List.filter_nil, List.append_nil]
    rw [Notice.isOf_eq_false (by simp [Payment.notice])]
    exact Bool.false_ne_true

end Desk

namespace World

variable {policy : Policy} {w : World}

theorem event_of_silent {s s' : Store} (h : s.Silent s') :
    ∃ e, (∀ i, e ≠ .act i) ∧ ∀ policy (w : World), w.store = s →
      (w.step policy e).store = s' ∧ (w.step policy e).attempts = w.attempts := by
  cases h with
  | keep => exact ⟨.payments s.payments, by simp, fun policy w hw => ⟨by rw [← hw]; rfl, rfl⟩⟩
  | ledger op => exact ⟨.ledger op, by simp, fun policy w hw => ⟨by rw [← hw]; rfl, rfl⟩⟩
  | addTransfer new => exact ⟨.create new, by simp, fun policy w hw => ⟨by rw [← hw]; rfl, rfl⟩⟩
  | openPayment hnew hwaits =>
    exact ⟨.payments (s.putPayment _).payments, by simp,
      fun policy w hw => ⟨by rw [← hw]; rfl, rfl⟩⟩
  | @linkTx id tx t s' h =>
    refine ⟨.link id tx, by simp, fun policy w hw => ?_⟩
    rw [← hw] at h
    simp only [step, h]
    trivial

theorem Mirrors.beside {d d' : Desk} (h : w.Mirrors d) {e : Event} (he : ∀ i, e ≠ .act i)
    (hstore : (w.step policy e).store = d'.store)
    (hattempts : (w.step policy e).attempts = w.attempts)
    (hnotices : ∀ id, d'.noticesOf .transfer id = d.noticesOf .transfer id) :
    (w.step policy e).Mirrors d' where
  inv := inv_step h.inv e
  store := hstore
  rests a ha := h.rests a (hattempts ▸ ha)
  notices t := by
    rw [hnotices, ← h.notices, World.notices, deeds_of_not_act policy w he]
    rfl

/-- An attempt that is taken on at a desk makes its transactions in the mirror,
where nothing comes between them either. -/
theorem Mirrors.proceed {d : Desk} (h : w.Mirrors d) (a : Attempt) (ha : a.stage.isEarly = true) :
    ∃ w' : World, w'.Mirrors (d.proceed a).2 := by
  let joined : World := { w with attempts := w.attempts ++ [a] }
  have hjoined : joined.Inv := h.inv.join ha
  have hlast : joined.attempts[w.attempts.length]? = some a := by simp [joined]
  obtain ⟨hstore, hattempts, hpublished⟩ :=
    run_acts d.options.policy a.stage.remaining hlast
  have hjoinedStore : joined.store = d.store := h.store
  rw [hjoinedStore] at hstore hattempts hpublished
  refine ⟨joined.run d.options.policy (.replicate a.stage.remaining (.act w.attempts.length)),
    run_invariant (P := Inv) (fun _ e hi => inv_step hi e) hjoined _, hstore, fun b hb => ?_,
    fun t => ?_⟩
  · have hset : joined.attempts.set w.attempts.length (a.proceed d.options.policy d.store).1 =
        w.attempts ++ [(a.proceed d.options.policy d.store).1] := by simp [joined]
    rw [hattempts] at hb
    rcases List.mem_append.mp (hset ▸ hb) with hb | hb
    · exact h.rests b hb
    · rw [List.mem_singleton.mp hb]
      exact remaining_proceed d.options.policy d.store a
  · rw [notices_run d.options.policy hjoined.sound, hpublished]
    show w.notices t ++ _ = _
    rw [h.notices]
    exact (Desk.noticesOf_append rfl .transfer (toString t)).symm

theorem Mirrors.noticeStep {d d' : Desk} (h : w.Mirrors d) (hb : d.NoticeStep d') :
    ∃ w' : World, w'.Mirrors d' := by
  cases hb with
  | silent hstore hnotices =>
    obtain ⟨e, he, hstep⟩ := event_of_silent hstore
    obtain ⟨hstore', hattempts⟩ := hstep d.options.policy w h.store
    exact ⟨_, h.beside he hstore' hattempts (Desk.noticesOf_congr hnotices .transfer)⟩
  | merge u =>
    obtain ⟨rows, hstore⟩ := d.store_apply_payments u
    have hstep : (w.step d.options.policy (.payments rows)).store = (d.apply u).2.store := by
      rw [hstore, ← h.store]
      rfl
    exact ⟨_, h.beside (by simp) hstep rfl (d.noticesOf_apply u)⟩
  | proceed a ha => exact h.proceed a ha

theorem Mirrors.noticeSteps {d d' : Desk} {ds : List Desk} (h : w.Mirrors d)
    (hb : d.NoticeSteps ds d') : ∃ w' : World, w'.Mirrors d' := by
  induction hb generalizing w with
  | refl => exact ⟨w, h⟩
  | cons hb _ ih =>
    obtain ⟨w', h'⟩ := h.noticeStep hb
    exact ih h'

end World

/-! ### What is published -/

namespace Desk

/-- **What is published is what has become of payments and transfers.** Every
run of a desk goes by steps, with what was taken out of its journal put back,
and those of a longer run begin with those of a shorter one. However they come,
the notices of a payment are the statuses that it has taken since it was opened,
in order and each once; these rank higher and higher, and are eight at most. A
transfer with its last status has been published with it, once, and no other
transfer has. So it is when attempts run side by side and stop anywhere, but for
one that has closed the transfer and has still to report. -/
theorem notices_exact :
    (∀ options, ∃ path : List Op → List Desk,
      (∀ ops, (start options).NoticeSteps (path ops) ((start options).after ops)) ∧
      ∀ ops ops', path ops <+: path (ops ++ ops')) ∧
    (∀ options ds d, (start options).NoticeSteps ds d →
      (∀ id, d.noticesOf .payment id = (statuses id ds).tail.map (paymentNotice id) ∧
        (statuses id ds).Pairwise (· < ·) ∧ (d.noticesOf .payment id).length ≤ 8) ∧
      ∀ t, d.noticesOf .transfer (toString t) = d.store.notices t) ∧
    ∀ policy events t, let w := World.empty.run policy events
      let ns := (World.empty.published policy events).filter (Notice.isOf .transfer (toString t))
      (ns = w.store.notices t ∨
        ns = [] ∧ ∃ i : Nat, w.attempts[i]? = some (Attempt.mk t .reporting)) ∧
      ∀ (i : Nat) q, w.attempts[i]? = some (Attempt.mk t (.done (.ok (.settled q)))) →
        w.store.transfers.get? t = some q ∧ q.status ≠ .pending ∧ ns = [q.notice] := by
  refine ⟨fun options => (start options).exists_noticeSteps,
    fun options ds d h => ⟨h.notices_start, fun t => ?_⟩, fun policy events t => ?_⟩
  · obtain ⟨w, hw⟩ := (World.Mirrors.start options).noticeSteps h
    exact hw.noticesOf_eq t
  · intro w ns
    have hi : w.Inv := World.inv_run policy events
    have hns : w.notices t = ns :=
      World.notices_run policy Store.sound_empty events t
    rw [← hns]
    exact ⟨(hi.latched t).notices_eq hi.sound,
      fun i q ha => (hi.latched t).notices_of_settled hi.sound ha⟩

/-- A transfer is linked to a transaction that the node does not know, and an
attempt on it fails; then the journal is taken out. -/
def unknownLink : List Op :=
  [.createWallet 1 "BTC" (some "a") false, .createWallet 2 "BTC" (some "b") false,
    .setBalance 1 100,
    .createTransfer {
      source := 1, amount := 25, sender := 1, receiverAddress := "b", priceCurrency := "BTC"
      payCurrency := "BTC", comment := "", linkedTx := some World.firstTx },
    .settle 1 1, .takeJournal]

/-- A payment that is seen, seen again and confirmed is published twice. A
transfer is published once, whether it fails at a desk or is settled among
attempts side by side. -/
theorem notices_exact_seenTwice :
    let options := (ofStore .empty).options
    (∃ ds d, (start options).NoticeSteps ds d ∧
      statuses "p" ds = [.waiting, .pending, .confirmed] ∧
      d.noticesOf .payment "p" = [paymentNotice "p" .pending, paymentNotice "p" .confirmed]) ∧
    ((start options).after unknownLink).noticesOf .transfer (toString 1) =
      [{ subject := .transfer, id := "1", status := "failed" }] ∧
    ∃ q, (World.empty.run .failFast (World.twoWallets ++
        World.settledBy 0 [])).store.transfers.get? 1 = some q ∧
      (World.empty.published .failFast (World.twoWallets ++ World.settledBy 0 [])).filter
        (Notice.isOf .transfer (toString 1)) = [q.notice] ∧ q.status = .completed := by
  intro options
  let opened : Desk := ofStore (.ofPayment firstPayment)
  let seen : Desk := (opened.apply (.ofSighting "p" (.of World.firstTx 0))).2
  let again : Desk := (seen.apply (.ofSighting "p" (.of World.firstTx 0))).2
  let confirmed : Desk := (again.apply (.ofSighting "p" (.of World.firstTx 6))).2
  have hsteps : (start options).NoticeSteps [opened, seen, again, confirmed] confirmed :=
    .cons (.silent (.openPayment (p := firstPayment) rfl rfl) rfl) <|
      .cons (.merge _) <| .cons (.merge _) <| .cons (.merge _) <| .refl _
  have hstatuses : statuses "p" [opened, seen, again, confirmed] =
      [.waiting, .pending, .confirmed] := by decide
  have hnotices := ((notices_exact.2.1 options _ _ hsteps).1 "p").1
  rw [hstatuses] at hnotices
  obtain ⟨path, hpath, -⟩ := notices_exact.1 options
  have hfailed := (notices_exact.2.1 options _ _ (hpath unknownLink)).2 1
  obtain ⟨q, hq, hcompleted⟩ : ∃ q, (World.empty.run .failFast (World.twoWallets ++
      World.settledBy 0 [])).attempts[0]? = some (Attempt.mk 1 (.done (.ok (.settled q)))) ∧
      q.status = .completed := ⟨_, rfl, rfl⟩
  obtain ⟨hrow, -, hns⟩ := (notices_exact.2.2 .failFast
    (World.twoWallets ++ World.settledBy 0 []) 1).2 0 q hq
  exact ⟨⟨[opened, seen, again, confirmed], confirmed, hsteps, hstatuses, hnotices⟩,
    hfailed.trans (by decide), q, hrow, hns, hcompleted⟩

end Desk
end Clearing
