import Clearing.Desk.Basic
import Clearing.Proofs.Turns
import Clearing.Store.Payments

/-!
# Attempts side by side

A world is a store with any number of attempts under way on it. An event is
one transaction or one answer of the node, and a run is any list of events:
attempts take their transactions in any order, are answered late or never, and
stop for good wherever the run takes them up no more. So a restart needs no
event of its own. A call that reads before it writes is here with its write
alone, whatever it has read. The world keeps a log of what the attempts did and
of the links, in order; an attempt is told by its place in the list.
-/

namespace Clearing

inductive Entry
  | deed (attempt transfer : Nat) (deed : Deed)
  | linked (transfer : Nat) (tx : String)

structure World where
  store : Store
  /-- The attempts in the order in which they began, the ended ones too. -/
  attempts : List Attempt
  log : List Entry

inductive Event
  /-- An attempt begins, for a new, linked or resumed transfer, for one that
  was deferred, or asked for directly. -/
  | begin (transfer : Nat)
  | act (attempt : Nat)
  | answer (attempt : Nat) (depth : Except NodeFault Int)
  | ledger (op : Ledger.Op)
  | create (new : NewTransfer)
  | link (transfer : Nat) (tx : String)
  | payments (rows : Table String Payment)

namespace World

def empty : World := { store := .empty, attempts := [], log := [] }

def step (policy : Policy) (w : World) : Event → World
  | .begin transfer => { w with attempts := w.attempts ++ [.start transfer] }
  | .act i =>
    match w.attempts[i]? with
    | none => w
    | some a =>
      { store := (a.step policy w.store).2.1
        attempts := w.attempts.set i (a.step policy w.store).1
        log := w.log ++ ((a.deed? w.store).map (.deed i a.transfer)).toList }
  | .answer i depth =>
    match w.attempts[i]? with
    | none => w
    | some a =>
      match a.stage with
      | .asking tx =>
        { w with
          attempts := w.attempts.set i (a.heard policy depth)
          log := w.log ++ [.deed i a.transfer (.heard tx depth)] }
      | _ => w
  | .ledger op => { w with store := op.run w.store }
  | .create new => { w with store := (w.store.addTransfer new).2 }
  | .link transfer tx =>
    match w.store.linkTx transfer tx with
    | .ok (some _, store) => { w with store, log := w.log ++ [.linked transfer tx] }
    | _ => w
  | .payments rows => { w with store := { w.store with payments := rows } }

def run (policy : Policy) (w : World) (events : List Event) : World :=
  events.foldl (step policy) w

variable {policy : Policy} {w : World}

theorem run_invariant {P : World → Prop} (hstep : ∀ w e, P w → P (w.step policy e))
    (h : P w) (events : List Event) : P (w.run policy events) := by
  induction events generalizing w with
  | nil => exact h
  | cons e events ih => exact ih (hstep w e h)

/-! ### What one event does -/

/-- The world when the attempt `i`, which is `a`, has done `d` and gone on to
the stage `τ`. -/
def goOn (w : World) (i : Nat) (a : Attempt) (d : Option Deed) (τ : Attempt.Stage)
    (store : Store) : World where
  store := store
  attempts := w.attempts.set i { a with stage := τ }
  log := w.log ++ (d.map (.deed i a.transfer)).toList

theorem step_act (policy : Policy) {i : Nat} {a : Attempt} (ha : w.attempts[i]? = some a) :
    w.step policy (.act i) =
      w.goOn i a (a.deed? w.store) (a.step policy w.store).1.stage (a.step policy w.store).2.1 := by
  simp only [step, ha]
  rfl

theorem step_act_none (policy : Policy) {i : Nat} (ha : w.attempts[i]? = none) :
    w.step policy (.act i) = w := by
  simp only [step, ha]

theorem step_answer (policy : Policy) (w : World) (i : Nat) (depth : Except NodeFault Int) :
    w.step policy (.answer i depth) = w ∨
      ∃ a tx, w.attempts[i]? = some a ∧ a.stage = .asking tx ∧
        w.step policy (.answer i depth) =
          w.goOn i a (some (.heard tx depth)) (policy.decide depth) w.store := by
  cases ha : w.attempts[i]? with
  | none => exact .inl (by simp only [step, ha])
  | some a =>
    by_cases hasks : ∃ tx, a.stage = .asking tx
    · obtain ⟨tx, hs⟩ := hasks
      refine .inr ⟨a, tx, rfl, hs, ?_⟩
      simp only [step, ha, Attempt.heard, hs]
      rfl
    · left
      simp only [step, ha]
      split
      · rename_i tx hs
        exact absurd ⟨tx, hs⟩ hasks
      · rfl

theorem step_link (policy : Policy) (w : World) (t : Nat) (tx : String) :
    w.step policy (.link t tx) = w ∨
      ∃ r, w.store.transfers.get? t = some r ∧ r.isProcessed = false ∧
        w.step policy (.link t tx) =
          { w with
            store := w.store.putTransfer { r with linkedTx := some tx }
            log := w.log ++ [.linked t tx] } := by
  cases hr : w.store.transfers.get? t with
  | none => exact .inl (by simp only [step, Store.linkTx, Store.modifyUnprocessed_of_none hr])
  | some r =>
    cases hp : r.isProcessed with
    | true =>
      left
      simp only [step, Store.linkTx, Store.modifyUnprocessed_of_processed hr hp]
    | false =>
      refine .inr ⟨r, rfl, hp, ?_⟩
      simp only [step, Store.linkTx, Store.modifyUnprocessed_of_open hr hp]

end World

/-! ### Soundness -/

theorem Attempt.Turn.sound {policy : Policy} {s s' : Store} {id : Nat} {σ τ : Attempt.Stage}
    {d : Option Deed} (hs : s.Sound) (h : Attempt.Turn policy s id σ d τ s') : s'.Sound := by
  cases h with
  | counted hr _ _ => exact hs.rewrite hr rfl
  | claimed hr _ => exact hs.rewrite hr rfl
  | closed hr _ => exact hs.rewrite hr rfl
  | finished hr => exact hs.rewrite hr rfl
  | debited h => exact Ledger.sound_debit hs h
  | credited h => exact Ledger.sound_credit hs h
  | refunded h => exact Ledger.sound_credit hs h
  | waits | ended | missing | late | opened | unlinked | debitRefused | creditRefused
  | refundRefused | reported => exact hs

theorem Attempt.Turn.balance {policy : Policy} {s s' : Store} {id : Nat} {σ τ : Attempt.Stage}
    {d : Option Deed} (hs : s.Sound) (h : Attempt.Turn policy s id σ d τ s') (k : Nat) :
    s'.balance k = s.balance k + d.elim 0 (Deed.gain k) := by
  cases h with
  | @debited q b s' h =>
    rw [Ledger.balance_debit hs h k]
    by_cases hk : k = q.source
    · simp only [Option.elim_some, Deed.gain, if_pos hk]
      omega
    · simp only [Option.elim_some, Deed.gain, if_neg hk]
      omega
  | credited h => exact Ledger.balance_credit hs h k
  | refunded h => exact Ledger.balance_credit hs h k
  | waits | ended | missing | late | opened | unlinked | counted | claimed | closed | debitRefused
  | creditRefused | refundRefused | finished | reported => exact (Int.add_zero _).symm

theorem Store.Sound.addTransfer {s : Store} (hs : s.Sound) (new : NewTransfer) :
    (s.addTransfer new).2.Sound := by
  have hnum : Store.Sound { s with lastTransfer := s.lastTransfer + 1 } :=
    ⟨hs.wallet_id, hs.wallet_le, hs.balance_nonneg, hs.balance_le, hs.transfer_id,
      fun h => Nat.le_succ_of_le (hs.transfer_le h)⟩
  exact hnum.putTransfer (Nat.le_refl _)

namespace World

variable {policy : Policy} {w : World}

theorem sound_step (e : Event) (hs : w.store.Sound) : (w.step policy e).store.Sound := by
  cases e with
  | begin t => exact hs
  | act i =>
    cases ha : w.attempts[i]? with
    | none =>
      rw [step_act_none policy ha]
      exact hs
    | some a =>
      rw [step_act policy ha]
      exact (Attempt.turn_step policy w.store a).sound hs
  | answer i depth =>
    obtain h | ⟨a, tx, -, -, h⟩ := step_answer policy w i depth
    · rw [h]
      exact hs
    · rw [h]
      exact hs
  | ledger op => exact (Ledger.Op.moves_run hs op).sound
  | create new => exact hs.addTransfer new
  | link t tx =>
    obtain h | ⟨r, hr, -, h⟩ := step_link policy w t tx
    · rw [h]
      exact hs
    · rw [h]
      exact hs.rewrite hr rfl
  | payments rows => exact hs.congr rfl rfl rfl rfl

theorem sound_run (events : List Event) : (empty.run policy events).store.Sound :=
  run_invariant (P := fun w => w.store.Sound) (fun _ e h => sound_step e h) Store.sound_empty events

/-! ### What is written beside the attempts -/

theorem row_of_other (policy : Policy) (hs : w.store.Sound) {e : Event} (h : ∀ i, e ≠ .act i)
    (t : Nat) :
    (w.step policy e).store.transfers.get? t = w.store.transfers.get? t ∨
    (w.store.transfers.get? t = none ∧
      ∃ r, (w.step policy e).store.transfers.get? t = some r ∧
        r.isProcessed = false ∧ r.status = .pending) ∨
    ∃ r tx, e = .link t tx ∧ w.store.transfers.get? t = some r ∧ r.isProcessed = false ∧
      (w.step policy e).store.transfers.get? t = some { r with linkedTx := some tx } := by
  cases e with
  | act i => exact absurd rfl (h i)
  | begin _ | payments _ => exact .inl rfl
  | answer i depth =>
    obtain hstep | ⟨a, tx, -, -, hstep⟩ := step_answer policy w i depth
    · rw [hstep]
      exact .inl rfl
    · rw [hstep]
      exact .inl rfl
  | ledger op =>
    left
    show (op.run w.store).transfers.get? t = _
    rw [(Ledger.Op.moves_run hs op).transfers]
  | create new =>
    have hrow : (w.step policy (.create new)).store.transfers.get? t =
        if t = w.store.lastTransfer + 1 then some (w.store.addTransfer new).1
        else w.store.transfers.get? t := Store.get?_putTransfer ..
    by_cases ht : t = w.store.lastTransfer + 1
    · rw [if_pos ht] at hrow
      rw [ht] at hrow ⊢
      exact .inr (.inl ⟨hs.fresh_transfer, _, hrow, rfl, rfl⟩)
    · rw [if_neg ht] at hrow
      exact .inl hrow
  | link t' tx =>
    obtain hstep | ⟨r, hr, hp, hstep⟩ := step_link policy w t' tx
    · rw [hstep]
      exact .inl rfl
    · rw [hstep]
      by_cases ht : t = t'
      · subst ht
        exact .inr (.inr ⟨r, tx, rfl, hr, hp, hs.get?_rewrite hr rfl⟩)
      · left
        refine (Store.get?_putTransfer ..).trans (if_neg ?_)
        show t ≠ r.id
        rw [hs.transfer_id hr]
        exact ht

/-! ### A run -/

def firstTx : String := "1111111111111111111111111111111111111111111111111111111111111111"

def secondTx : String := "2222222222222222222222222222222222222222222222222222222222222222"

/-- Two wallets, the first with 100 units, and a transfer of 25 units between
them that is linked to `firstTx`. -/
def twoWallets : List Event :=
  [.ledger (.openWallet { owner := 1, currency := "BTC", address := "a", isDefault := false }),
    .ledger (.openWallet { owner := 2, currency := "BTC", address := "b", isDefault := false }),
    .ledger (.credit 1 100),
    .create {
      source := 1, receiver := 2, amount := 25, priceCurrency := "BTC", payCurrency := "BTC"
      comment := "", sender := 1, receiverAddress := "b", linkedTx := some firstTx }]

/-- An attempt on the transfer asks the node, hears of a depth of six, with
something else done meanwhile, and moves the funds. -/
def settledBy (i : Nat) (meanwhile : List Event) : List Event :=
  [.begin 1, .act i] ++ meanwhile ++ [.answer i (.ok 6), .act i, .act i, .act i, .act i]

end World

def Desk.ofStore (store : Store) : Desk :=
  { Desk.start {
      network := .regtest, baseUrl := "", secret := [], timing := .standard, policy := .failFast }
    with store }

end Clearing
