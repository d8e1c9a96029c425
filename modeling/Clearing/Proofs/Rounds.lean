import Clearing.Desk.Transfers
import Clearing.Proofs.Latch
import Clearing.Proofs.Settlement
import Clearing.Proofs.WalletCalls

/-!
# Attempts in rounds

Between two waits an attempt comes through in one go: from its start until it
asks the node, and from the answer to its end. Here these are the steps of the
tasks of a transfer, and while they wait the ledger, the links and the payments
change. A task that was stopped has no more steps.

A check that is counted is a deferral, but for the last one, which closes the
transfer in the same step. So as long as a transfer is unprocessed its checks
are the deferrals of all its tasks, and fewer than allowed. With single
transactions as steps this would not hold: two attempts may each count a check
before either closes the transfer.
-/

namespace Clearing

open Attempt

/-! ### Tasks -/

inductive Write
  | ledger (op : Ledger.Op)
  | create (new : NewTransfer)
  | link (transfer : Nat) (tx : String)
  | payments (rows : Table String Payment)

def Write.run (s : Store) : Write → Store
  | .ledger op => op.run s
  | .create new => (s.addTransfer new).2
  | .link transfer tx => s.after (s.linkTx transfer tx)
  | .payments rows => { s with payments := rows }

def Attempt.isDeferred (a : Attempt) : Bool :=
  match a.stage with
  | .done (.ok (.deferred _)) => true
  | _ => false

/-- A task that works on a transfer, with its attempts, the latest first. -/
structure Loop where
  transfer : Nat
  attempts : List Attempt

namespace Loop

def start (transfer : Nat) : Loop := { transfer, attempts := [] }

def isReady (l : Loop) : Bool :=
  match l.attempts with
  | [] => true
  | a :: _ => a.isDeferred

def deferrals (l : Loop) : Nat := l.attempts.countP Attempt.isDeferred

def deferralsOn (t : Nat) (loops : List Loop) : Nat :=
  ((loops.filter (·.transfer == t)).flatMap attempts).countP Attempt.isDeferred

inductive Takes (policy : Policy) (l : Loop) : List Attempt → Attempt → Prop
  | begins (h : l.isReady = true) : Takes policy l l.attempts (.start l.transfer)
  | hears {a : Attempt} {past : List Attempt} (h : l.attempts = a :: past)
      (ha : a.isAsking = true) (depth : Except NodeFault Int) :
      Takes policy l past (a.heard policy depth)

/-- All attempts are on the transfer of the task, and it went on after those
only that were deferred. -/
structure Kept (l : Loop) : Prop where
  own : ∀ a ∈ l.attempts, a.transfer = l.transfer
  past : ∀ a ∈ l.attempts.tail, a.isDeferred = true

end Loop

/-- A store with the tasks that work on transfers, also the ended ones, and the
transfers for which the node was asked, in order. -/
structure Rounds where
  store : Store
  loops : List Loop
  lookups : List Nat

inductive Round
  | schedule (transfer : Nat)
  | begin (loop : Nat)
  | answer (loop : Nat) (depth : Except NodeFault Int)
  | write (w : Write)

namespace Rounds

def empty : Rounds := { store := .empty, loops := [], lookups := [] }

def goOn (policy : Policy) (x : Rounds) (i transfer : Nat) (past : List Attempt) (a : Attempt) :
    Rounds :=
  let (b, store, _) := a.proceed policy x.store
  { store
    loops := x.loops.set i { transfer, attempts := b :: past }
    lookups := if b.isAsking then x.lookups ++ [transfer] else x.lookups }

def step (policy : Policy) (x : Rounds) : Round → Rounds
  | .schedule transfer => { x with loops := x.loops ++ [.start transfer] }
  | .begin i =>
    match x.loops[i]? with
    | none => x
    | some l => if l.isReady then x.goOn policy i l.transfer l.attempts (.start l.transfer) else x
  | .answer i depth =>
    match x.loops[i]? with
    | none => x
    | some l =>
      match l.attempts with
      | [] => x
      | a :: past =>
        if a.isAsking then x.goOn policy i l.transfer past (a.heard policy depth) else x
  | .write w => { x with store := w.run x.store }

def run (policy : Policy) (x : Rounds) (rounds : List Round) : Rounds :=
  rounds.foldl (step policy) x

def deferrals (x : Rounds) (t : Nat) : Nat := Loop.deferralsOn t x.loops

variable {policy : Policy} {x : Rounds}

theorem run_invariant {P : Rounds → Prop} (hstep : ∀ x e, P x → P (x.step policy e))
    (h : P x) (rounds : List Round) : P (x.run policy rounds) := by
  induction rounds generalizing x with
  | nil => exact h
  | cons e rounds ih => exact ih (hstep x e h)

theorem run_append (policy : Policy) (x : Rounds) (rounds more : List Round) :
    x.run policy (rounds ++ more) = (x.run policy rounds).run policy more :=
  List.foldl_append

theorem step_begin (policy : Policy) {i : Nat} {l : Loop} (hl : x.loops[i]? = some l)
    (hready : l.isReady = true) :
    x.step policy (.begin i) = x.goOn policy i l.transfer l.attempts (.start l.transfer) := by
  simp [step, hl, hready]

theorem step_answer (policy : Policy) {i : Nat} {l : Loop} {a : Attempt} {past : List Attempt}
    (hl : x.loops[i]? = some l) (hattempts : l.attempts = a :: past) (ha : a.isAsking = true)
    (depth : Except NodeFault Int) :
    x.step policy (.answer i depth) = x.goOn policy i l.transfer past (a.heard policy depth) := by
  simp [step, hl, hattempts, ha]

theorem step_cases (policy : Policy) (x : Rounds) (e : Round) :
    x.step policy e = x ∨
    (∃ t, x.step policy e = { x with loops := x.loops ++ [.start t] }) ∨
    (∃ w : Write, x.step policy e = { x with store := w.run x.store }) ∨
    ∃ i l past a, x.loops[i]? = some l ∧ l.Takes policy past a ∧
      x.step policy e = x.goOn policy i l.transfer past a := by
  cases e with
  | schedule t => exact .inr (.inl ⟨t, rfl⟩)
  | write w => exact .inr (.inr (.inl ⟨w, rfl⟩))
  | begin i =>
    cases hl : x.loops[i]? with
    | none => exact .inl (by simp only [step, hl])
    | some l =>
      cases hready : l.isReady with
      | false => exact .inl (by simp [step, hl, hready])
      | true =>
        exact .inr (.inr (.inr ⟨i, l, _, _, hl, .begins hready, step_begin policy hl hready⟩))
  | answer i depth =>
    cases hl : x.loops[i]? with
    | none => exact .inl (by simp only [step, hl])
    | some l =>
      cases hattempts : l.attempts with
      | nil => exact .inl (by simp only [step, hl, hattempts])
      | cons a past =>
        cases hasks : a.isAsking with
        | false => exact .inl (by simp [step, hl, hattempts, hasks])
        | true =>
          exact .inr (.inr (.inr ⟨i, l, past, _, hl, .hears hattempts hasks depth,
            step_answer policy hl hattempts hasks depth⟩))

end Rounds

/-! ### What is written beside the attempts -/

namespace Write

variable {s : Store}

theorem after_linkTx (s : Store) (t : Nat) (tx : String) :
    s.after (s.linkTx t tx) = s ∨
      ∃ r, s.transfers.get? t = some r ∧ r.isProcessed = false ∧
        s.after (s.linkTx t tx) = s.putTransfer { r with linkedTx := some tx } := by
  unfold Store.linkTx
  cases hr : s.transfers.get? t with
  | none => exact .inl (by rw [Store.modifyUnprocessed_of_none hr]; rfl)
  | some r =>
    cases hp : r.isProcessed with
    | true => exact .inl (by rw [Store.modifyUnprocessed_of_processed hr hp]; rfl)
    | false =>
      exact .inr ⟨r, rfl, hp, by rw [Store.modifyUnprocessed_of_open hr hp]; rfl⟩

theorem sound_run (hs : s.Sound) (w : Write) : (w.run s).Sound := by
  cases w with
  | ledger op => exact (Ledger.Op.moves_run hs op).sound
  | create new => exact hs.addTransfer new
  | link t tx =>
    show (s.after (s.linkTx t tx)).Sound
    obtain h | ⟨r, hr, -, h⟩ := after_linkTx s t tx
    · rw [h]
      exact hs
    · rw [h]
      exact hs.rewrite hr rfl
  | payments rows => exact hs.congr rfl rfl rfl rfl

theorem row_run (hs : s.Sound) (w : Write) (t : Nat) :
    (w.run s).transfers.get? t = s.transfers.get? t ∨
    (s.transfers.get? t = none ∧
      ∃ r, (w.run s).transfers.get? t = some r ∧ r.isProcessed = false ∧ r.checks = 0) ∨
    ∃ r tx, s.transfers.get? t = some r ∧ r.isProcessed = false ∧
      (w.run s).transfers.get? t = some { r with linkedTx := some tx } := by
  cases w with
  | payments rows => exact .inl rfl
  | ledger op =>
    left
    show (op.run s).transfers.get? t = _
    rw [(Ledger.Op.moves_run hs op).transfers]
  | create new =>
    have hrow : (Write.run s (.create new)).transfers.get? t =
        if t = s.lastTransfer + 1 then some (s.addTransfer new).1 else s.transfers.get? t :=
      Store.get?_putTransfer ..
    by_cases ht : t = s.lastTransfer + 1
    · rw [if_pos ht] at hrow
      exact .inr (.inl ⟨ht ▸ hs.fresh_transfer, _, hrow, rfl, rfl⟩)
    · rw [if_neg ht] at hrow
      exact .inl hrow
  | link t' tx =>
    have hrun : (Write.run s (.link t' tx)) = s.after (s.linkTx t' tx) := rfl
    rw [hrun]
    obtain h | ⟨r, hr, hp, h⟩ := after_linkTx s t' tx
    · rw [h]
      exact .inl rfl
    · rw [h]
      by_cases ht : t = t'
      · subst ht
        exact .inr (.inr ⟨r, tx, hr, hp, hs.get?_rewrite hr rfl⟩)
      · left
        refine (Store.get?_putTransfer ..).trans (if_neg ?_)
        show t ≠ r.id
        rw [hs.transfer_id hr]
        exact ht

end Write

/-! ### A transfer that is processed -/

def Store.IsProcessed (s : Store) (t : Nat) : Prop :=
  ∃ r, s.transfers.get? t = some r ∧ r.isProcessed = true

theorem Store.IsProcessed.not_open {s : Store} {t : Nat} (h : s.IsProcessed t) {q : Transfer}
    (hq : s.transfers.get? t = some q) : q.isProcessed ≠ false := by
  obtain ⟨r, hr, hp⟩ := h
  rw [hr] at hq
  cases hq
  simp [hp]

section Turns

variable {policy : Policy} {s s' : Store} {id t : Nat} {σ τ : Stage} {d : Option Deed}

theorem Attempt.Turn.isProcessed (hs : s.Sound) (h : Turn policy s id σ d τ s')
    (ht : s.IsProcessed t) : s'.IsProcessed t := by
  have not_open : ∀ {q : Transfer}, s.transfers.get? t = some q → q.isProcessed ≠ false :=
    fun hq => ht.not_open hq
  obtain ⟨r, hr, hp⟩ := ht
  by_cases hid : t = id
  · subst hid
    cases h with
    | counted hq hp' _ => exact absurd hp' (not_open hq)
    | claimed hq hp' => exact absurd hp' (not_open hq)
    | closed hq hp' => exact absurd hp' (not_open hq)
    | finished hq =>
      rw [hr] at hq
      cases hq
      exact ⟨_, hs.get?_rewrite hr rfl, hp⟩
    | debited h => exact ⟨r, by rw [Ledger.transfers_debit h, hr], hp⟩
    | credited h => exact ⟨r, by rw [Ledger.transfers_credit h, hr], hp⟩
    | refunded h => exact ⟨r, by rw [Ledger.transfers_credit h, hr], hp⟩
    | waits | ended | missing | late | opened | unlinked | debitRefused | creditRefused
    | refundRefused | reported => exact ⟨r, hr, hp⟩
  · exact ⟨r, by rw [h.row_ne hs hid, hr], hp⟩

theorem Attempt.Turn.late_of_processed (ht : s.IsProcessed id) (hσ : σ.isEarly = true)
    (h : Turn policy s id σ d τ s') : τ = .late := by
  cases h with
  | late => rfl
  | missing hnone _ =>
    obtain ⟨r, hr, -⟩ := ht
    simp [hnone] at hr
  | opened hq hp _ => exact absurd hp (ht.not_open hq)
  | unlinked hq hp _ => exact absurd hp (ht.not_open hq)
  | counted hq hp _ => exact absurd hp (ht.not_open hq)
  | claimed hq hp => exact absurd hp (ht.not_open hq)
  | closed hq hp => exact absurd hp (ht.not_open hq)
  | waits | ended | debited | debitRefused | credited | creditRefused | refunded | refundRefused
  | finished | reported => simp [Stage.isEarly] at hσ

theorem Attempt.isAsking_proceed (policy : Policy) (hs : s.Sound) (a : Attempt)
    (ht : s.IsProcessed a.transfer) (ha : a.stage.isEarly = true) :
    (a.proceed policy s).1.isAsking = false := by
  obtain ⟨⟨-, -, hstage⟩, -⟩ := steps_invariant policy a.transfer
    (P := fun s' σ => s'.Sound ∧ s'.IsProcessed a.transfer ∧ (σ.isEarly = true ∨ σ = .late))
    (fun h hturn => by
      obtain ⟨hs, ht, hσ | rfl⟩ := h
      · exact ⟨hturn.sound hs, hturn.isProcessed hs ht, .inr (hturn.late_of_processed ht hσ)⟩
      · cases hturn with
        | ended => exact ⟨hs, ht, .inr rfl⟩
        | missing _ hσ => simp [Stage.late, Stage.isEarly] at hσ
        | late _ _ hσ => simp [Stage.late, Stage.isEarly] at hσ)
    a.stage.remaining a s rfl ⟨hs, ht, .inl ha⟩
  unfold isAsking proceed
  split
  · rename_i tx hasks
    rw [hasks] at hstage
    simp [Stage.isEarly, Stage.late] at hstage
  · rfl

/-! ### Counting checks -/

/-- A transfer as it is stored, of whose attempts `n` were deferred, where `m`
checks are allowed. -/
def Checked (m : Nat) : Option Transfer → Nat → Prop
  | none, n => n = 0
  | some r, n => n < max m 1 ∧ r.checks ≤ max m 1 ∧ (r.isProcessed = false → r.checks = n)

/-- The same of a transfer about to be closed, which may bear a check more. -/
def Closable (m : Nat) : Option Transfer → Nat → Prop
  | none, n => n = 0
  | some r, n => n < max m 1 ∧ r.checks ≤ max m 1

variable {m n : Nat} {row : Option Transfer}

theorem Checked.lt (h : Checked m row n) : n < max m 1 := by
  cases row with
  | none =>
    rw [show n = 0 from h]
    omega
  | some r => exact h.1

theorem Checked.closable (h : Checked m row n) : Closable m row n := by
  cases row with
  | none => exact h
  | some r => exact ⟨h.1, h.2.1⟩

theorem Closable.checked {r : Transfer} (h : Closable m (some r) n) (hp : r.isProcessed = true) :
    Checked m (some r) n :=
  ⟨h.1, h.2, fun hopen => by simp [hp] at hopen⟩

theorem Checked.congr {r r' : Transfer} (h : Checked m (some r) n) (hchecks : r'.checks = r.checks)
    (hp : r'.isProcessed = r.isProcessed ∨ r'.isProcessed = true) : Checked m (some r') n := by
  refine ⟨h.1, hchecks ▸ h.2.1, fun hopen => ?_⟩
  obtain hp | hp := hp
  · rw [hchecks]
    exact h.2.2 (hp ▸ hopen)
  · simp [hp] at hopen

/-- A transfer on which an attempt works of whose other attempts `n` were
deferred, and with it the attempt itself once it is deferred. -/
def Attempt.Stage.Checked (m : Nat) : Stage → Option Transfer → Nat → Prop
  | .counting limit, row, n => limit = m ∧ Clearing.Checked m row n
  | .closing, row, n => Closable m row n
  | .done (.ok (.deferred _)), row, n => Clearing.Checked m row (n + 1)
  | _, row, n => Clearing.Checked m row n

theorem Attempt.Stage.Checked.closable (h : σ.Checked m row n) (hσ : ∀ result, σ ≠ .done result) :
    Closable m row n := by
  cases σ with
  | done result => exact absurd rfl (hσ result)
  | closing => exact h
  | counting limit => exact Clearing.Checked.closable h.2
  | opening | asking | claiming | debiting | crediting | refunding | finishing | reporting =>
    exact Clearing.Checked.closable h

theorem Attempt.Turn.checked {interval : Nat} (hs : s.Sound)
    (hσ : σ.Checked m (s.transfers.get? id) n)
    (h : Turn (.retry interval m) s id σ d τ s') : τ.Checked m (s'.transfers.get? id) n := by
  cases h with
  | waits | ended | debitRefused | creditRefused | refundRefused | opened => exact hσ
  | missing hr hearly =>
    have hclosable := hσ.closable fun result hdone => by
      simp [hdone, Stage.isEarly] at hearly
    rw [hr] at hclosable ⊢
    exact hclosable
  | late hr hp hearly =>
    have hclosable := hσ.closable fun result hdone => by
      simp [hdone, Stage.isEarly] at hearly
    rw [hr] at hclosable ⊢
    exact hclosable.checked hp
  | unlinked => exact ⟨rfl, hσ⟩
  | @counted r limit τ hr hp hτ =>
    obtain ⟨rfl, hchecked⟩ := hσ
    rw [hr] at hchecked
    obtain ⟨hlt, -, hchecks⟩ := hchecked
    replace hchecks : r.checks = n := hchecks hp
    have hrow : (s.putTransfer { r with checks := r.checks + 1 }).transfers.get? id =
        some { r with checks := r.checks + 1 } := hs.get?_rewrite hr rfl
    rw [hrow, hτ]
    split
    · -- the last check, after which the attempt closes the transfer
      refine ⟨hlt, ?_⟩
      show r.checks + 1 ≤ max limit 1
      omega
    · -- another one, with which it is deferred
      refine ⟨?_, ?_, fun _ => ?_⟩
      · omega
      · show r.checks + 1 ≤ max limit 1
        omega
      · show r.checks + 1 = n + 1
        omega
  | @claimed r hr hp =>
    replace hσ : Checked m (s.transfers.get? id) n := hσ
    have hrow : (s.putTransfer { r with isProcessed := true }).transfers.get? id =
        some { r with isProcessed := true } := hs.get?_rewrite hr rfl
    rw [hr] at hσ
    rw [hrow]
    exact hσ.congr rfl (.inr rfl)
  | @closed r hr hp =>
    replace hσ : Closable m (s.transfers.get? id) n := hσ
    have hrow :
        (s.putTransfer { r with isProcessed := true, status := .failed }).transfers.get? id =
          some { r with isProcessed := true, status := .failed } := hs.get?_rewrite hr rfl
    rw [hr] at hσ
    rw [hrow]
    exact ⟨hσ.1, hσ.2, fun hopen => by cases hopen⟩
  | debited h =>
    rw [Ledger.transfers_debit h]
    exact hσ
  | credited h =>
    rw [Ledger.transfers_credit h]
    exact hσ
  | refunded h =>
    rw [Ledger.transfers_credit h]
    exact hσ
  | @finished r status hr =>
    replace hσ : Checked m (s.transfers.get? id) n := hσ
    have hrow : (s.putTransfer { r with status }).transfers.get? id = some { r with status } :=
      hs.get?_rewrite hr rfl
    rw [hr] at hσ
    rw [hrow]
    exact hσ.congr rfl (.inl rfl)
  | reported hr => exact hσ

/-- What an attempt does on its way until it waits or is done: it writes no other
transfer, and of its own it counts the check with which it is deferred. -/
theorem Attempt.checked_proceed {interval : Nat} (hs : s.Sound) (a : Attempt)
    (ha : a.stage.Checked m (s.transfers.get? a.transfer) n) :
    let q := a.proceed (.retry interval m) s
    q.1.transfer = a.transfer ∧ q.2.1.Sound ∧
      (∀ t, t ≠ a.transfer → q.2.1.transfers.get? t = s.transfers.get? t) ∧
      Clearing.Checked m (q.2.1.transfers.get? a.transfer) (n + q.1.isDeferred.toNat) := by
  obtain ⟨⟨hsound, hother, hchecked⟩, htransfer⟩ := steps_invariant (.retry interval m) a.transfer
    (P := fun s' σ => s'.Sound ∧
      (∀ t, t ≠ a.transfer → s'.transfers.get? t = s.transfers.get? t) ∧
      σ.Checked m (s'.transfers.get? a.transfer) n)
    (fun h hturn => ⟨hturn.sound h.1,
      fun t ht => (hturn.row_ne h.1 ht).trans (h.2.1 t ht), hturn.checked h.1 h.2.2⟩)
    a.stage.remaining a s rfl ⟨hs, fun _ _ => rfl, ha⟩
  refine ⟨htransfer, hsound, hother, ?_⟩
  have hrest := remaining_proceed (.retry interval m) s a
  unfold proceed at hrest ⊢
  generalize (a.steps _ a.stage.remaining s).1 = b at hrest hchecked ⊢
  obtain ⟨t, σ⟩ := b
  -- at rest an attempt asks or is done, and only a deferred one has one more to its count
  match σ with
  | .asking _ => exact hchecked
  | .done (.error _) => exact hchecked
  | .done (.ok .alreadyProcessed) => exact hchecked
  | .done (.ok (.deferred _)) => exact hchecked
  | .done (.ok (.settled _)) => exact hchecked
  | .opening | .claiming | .debiting _ | .crediting _ | .refunding _ | .finishing _ | .counting _
  | .closing | .reporting => cases hrest

theorem Attempt.isProcessed_proceed (policy : Policy) (hs : s.Sound) (a : Attempt)
    (ht : s.IsProcessed t) : (a.proceed policy s).2.1.IsProcessed t :=
  (steps_invariant policy a.transfer (P := fun s' _ => s'.Sound ∧ s'.IsProcessed t)
    (fun h hturn => ⟨hturn.sound h.1, hturn.isProcessed h.1 h.2⟩)
    a.stage.remaining a s rfl ⟨hs, ht⟩).1.2

end Turns

/-! ### What a task takes on -/

theorem Attempt.exists_asking {a : Attempt} (h : a.isAsking = true) :
    ∃ tx, a.stage = .asking tx := by
  unfold isAsking at h
  split at h
  · rename_i tx hs
    exact ⟨tx, hs⟩
  · cases h

theorem Attempt.heard_of_isAsking {a : Attempt} (h : a.isAsking = true) (policy : Policy)
    (depth : Except NodeFault Int) :
    a.heard policy depth = { a with stage := policy.decide depth } := by
  obtain ⟨tx, hs⟩ := exists_asking h
  unfold heard
  rw [hs]

namespace Loop

variable {policy : Policy} {l : Loop} {past : List Attempt} {a : Attempt}

theorem Kept.past_of_takes (h : l.Kept) (ht : l.Takes policy past a) :
    ∀ b ∈ past, b.isDeferred = true := by
  cases ht with
  | begins hready =>
    unfold isReady at hready
    intro b hb
    have hpast := h.past
    cases hattempts : l.attempts with
    | nil =>
      rw [hattempts] at hb
      cases hb
    | cons c rest =>
      rw [hattempts] at hready hb hpast
      rcases List.mem_cons.mp hb with rfl | hb
      · exact hready
      · exact hpast b hb
  | hears hattempts ha depth =>
    intro b hb
    exact h.past b (by rw [hattempts]; exact hb)

theorem Takes.mem (ht : l.Takes policy past a) {b : Attempt} (hb : b ∈ past) : b ∈ l.attempts := by
  cases ht with
  | begins hready => exact hb
  | hears hattempts ha depth =>
    rw [hattempts]
    exact List.mem_cons_of_mem _ hb

theorem Takes.deferrals_eq (ht : l.Takes policy past a) :
    l.deferrals = past.countP Attempt.isDeferred := by
  cases ht with
  | begins hready => rfl
  | hears hattempts ha depth =>
    obtain ⟨tx, hs⟩ := exists_asking ha
    unfold deferrals
    rw [hattempts, List.countP_cons_of_neg]
    simp [isDeferred, hs]

theorem Kept.transfer_of_takes (h : l.Kept) (ht : l.Takes policy past a) :
    a.transfer = l.transfer := by
  cases ht with
  | begins hready => rfl
  | @hears b past hattempts hb depth =>
    rw [heard_of_isAsking hb]
    exact h.own b (by rw [hattempts]; exact List.mem_cons_self)

theorem Takes.isEarly (ht : l.Takes policy past a) : a.stage.isEarly = true := by
  cases ht with
  | begins hready => rfl
  | @hears b past hattempts hb depth =>
    rw [heard_of_isAsking hb]
    exact isEarly_decide policy depth

theorem checked_decide {m n interval : Nat} {row : Option Transfer} (h : Checked m row n)
    (depth : Except NodeFault Int) :
    ((Policy.retry interval m).decide depth).Checked m row n := by
  unfold Policy.decide Policy.whileShallow
  split
  · split
    · exact h
    · exact ⟨rfl, h⟩
  · exact ⟨rfl, h⟩
  · exact h.closable

theorem Takes.checked {m n interval : Nat} {row : Option Transfer}
    (ht : l.Takes (.retry interval m) past a) (h : Checked m row n) : a.stage.Checked m row n := by
  cases ht with
  | begins hready => exact h
  | @hears b past hattempts hb depth =>
    rw [heard_of_isAsking hb]
    exact checked_decide h depth

theorem Kept.takes (h : l.Kept) (ht : l.Takes policy past a) {b : Attempt}
    (hb : b.transfer = a.transfer) : Kept { l with attempts := b :: past } where
  own c hc := by
    rcases List.mem_cons.mp hc with rfl | hc
    · exact hb.trans (h.transfer_of_takes ht)
    · exact h.own c (ht.mem hc)
  past := h.past_of_takes ht

theorem Kept.start (t : Nat) : (Loop.start t).Kept where
  own a ha := by cases ha
  past a ha := by cases ha

theorem Kept.length_le (h : l.Kept) :
    l.attempts.length ≤ l.deferrals + 1 ∧
      (l.isReady = true → l.attempts.length ≤ l.deferrals) := by
  have hall : ∀ {as : List Attempt}, (∀ a ∈ as, a.isDeferred = true) →
      as.countP Attempt.isDeferred = as.length := fun has => List.countP_eq_length.mpr has
  have hpast := h.past
  unfold deferrals isReady
  cases hattempts : l.attempts with
  | nil => simp
  | cons a past =>
    rw [hattempts] at hpast
    have hcount := hall hpast
    simp only [List.tail_cons] at hcount
    constructor
    · rw [List.countP_cons, hcount, List.length_cons]
      omega
    · intro hready
      replace hready : a.isDeferred = true := hready
      rw [List.countP_cons_of_pos hready, hcount, List.length_cons]

/-! ### All tasks -/

variable {loops : List Loop} {t : Nat}

theorem deferralsOn_cons (t : Nat) (l : Loop) (loops : List Loop) :
    deferralsOn t (l :: loops) =
      (if l.transfer = t then l.deferrals else 0) + deferralsOn t loops := by
  unfold deferralsOn
  by_cases ht : l.transfer = t
  · simp [ht, deferrals]
  · simp [ht]

theorem deferralsOn_append (t : Nat) (loops more : List Loop) :
    deferralsOn t (loops ++ more) = deferralsOn t loops + deferralsOn t more := by
  unfold deferralsOn
  rw [List.filter_append, List.flatMap_append, List.countP_append]

theorem deferralsOn_set {i : Nat} {l l' : Loop} (hl : loops[i]? = some l)
    (hl' : l'.transfer = l.transfer) :
    deferralsOn t (loops.set i l') + (if l.transfer = t then l.deferrals else 0) =
      deferralsOn t loops + (if l.transfer = t then l'.deferrals else 0) := by
  induction loops generalizing i with
  | nil => cases hl
  | cons k loops ih =>
    cases i with
    | zero =>
      cases hl
      rw [List.set_cons_zero, deferralsOn_cons, deferralsOn_cons, hl']
      omega
    | succ i =>
      have hrest := ih hl
      rw [List.set_cons_succ, deferralsOn_cons, deferralsOn_cons]
      omega

theorem Takes.deferralsOn_set {i : Nat} (ht : l.Takes policy past a) (hl : loops[i]? = some l)
    (b : Attempt) :
    deferralsOn t (loops.set i { transfer := l.transfer, attempts := b :: past }) =
      deferralsOn t loops + if l.transfer = t then b.isDeferred.toNat else 0 := by
  have hcount : deferrals { transfer := l.transfer, attempts := b :: past } =
      l.deferrals + b.isDeferred.toNat := by
    rw [ht.deferrals_eq]
    unfold deferrals
    rw [List.countP_cons]
    cases b.isDeferred <;> rfl
  have hset := @Loop.deferralsOn_set loops t i l
    { transfer := l.transfer, attempts := b :: past } hl rfl
  rw [hcount] at hset
  by_cases hown : l.transfer = t
  · rw [if_pos hown, if_pos hown] at hset
    rw [if_pos hown]
    omega
  · rw [if_neg hown, if_neg hown] at hset
    rw [if_neg hown]
    omega

theorem deferralsOn_le (hl : l ∈ loops) :
    l.deferrals ≤ deferralsOn l.transfer loops := by
  induction loops with
  | nil => cases hl
  | cons k loops ih =>
    rw [deferralsOn_cons]
    rcases List.mem_cons.mp hl with rfl | hl
    · rw [if_pos rfl]
      omega
    · exact Nat.le_trans (ih hl) (Nat.le_add_left _ _)

end Loop

/-! ### Every step -/

namespace Write

variable {s : Store} {t m n : Nat}

theorem checked_run (hs : s.Sound) (w : Write) (h : Checked m (s.transfers.get? t) n) :
    Checked m ((w.run s).transfers.get? t) n := by
  obtain hsame | ⟨hnone, r, hr, hp, hchecks⟩ | ⟨r, tx, hr, hp, hlinked⟩ := w.row_run hs t
  · rwa [hsame]
  · rw [hnone] at h
    obtain rfl : n = 0 := h
    rw [hr]
    exact ⟨by omega, by omega, fun _ => hchecks⟩
  · rw [hr] at h
    rw [hlinked]
    exact h.congr rfl (.inl rfl)

theorem isProcessed_run (hs : s.Sound) (w : Write) (h : s.IsProcessed t) :
    (w.run s).IsProcessed t := by
  have not_open : ∀ {q : Transfer}, s.transfers.get? t = some q → q.isProcessed ≠ false :=
    fun hq => h.not_open hq
  obtain ⟨q, hq, hp⟩ := h
  obtain hsame | ⟨hnone, -⟩ | ⟨r, tx, hr, hopen, -⟩ := w.row_run hs t
  · exact ⟨q, by rw [hsame, hq], hp⟩
  · simp [hnone] at hq
  · exact absurd hopen (not_open hr)

end Write

namespace Rounds

variable {x : Rounds} {interval m t : Nat}

/-- Where `m` checks are allowed: the checks of each transfer are within bounds,
and agree with the deferrals of its tasks as long as it is unprocessed. -/
structure Bounded (m : Nat) (x : Rounds) : Prop where
  sound : x.store.Sound
  checked : ∀ t, Checked m (x.store.transfers.get? t) (x.deferrals t)
  kept : ∀ l ∈ x.loops, l.Kept

theorem Bounded.empty (m : Nat) : Rounds.empty.Bounded m where
  sound := Store.sound_empty
  checked t := by
    have hnone : Rounds.empty.store.transfers.get? t = none := rfl
    rw [hnone]
    rfl
  kept l hl := by cases hl

theorem Bounded.schedule (h : x.Bounded m) (t : Nat) :
    Bounded m { x with loops := x.loops ++ [.start t] } where
  sound := h.sound
  checked u := by
    have hcount : deferrals { x with loops := x.loops ++ [.start t] } u = x.deferrals u := by
      unfold deferrals
      rw [Loop.deferralsOn_append, Loop.deferralsOn_cons]
      show _ + ((if t = u then 0 else 0) + 0) = _
      split <;> rfl
    rw [hcount]
    exact h.checked u
  kept l hl := by
    rcases List.mem_append.mp hl with hl | hl
    · exact h.kept l hl
    · rw [List.mem_singleton.mp hl]
      exact .start t

theorem Bounded.goOn (h : x.Bounded m) {i : Nat} {l : Loop} {past : List Attempt} {a : Attempt}
    (hl : x.loops[i]? = some l) (ht : l.Takes (.retry interval m) past a) :
    (x.goOn (.retry interval m) i l.transfer past a).Bounded m := by
  have hkept := h.kept l (List.mem_of_getElem? hl)
  have htransfer := hkept.transfer_of_takes ht
  obtain ⟨hb, hsound, hother, hchecked⟩ :=
    checked_proceed h.sound a (ht.checked (h.checked a.transfer))
  have hcount : ∀ u, (x.goOn (.retry interval m) i l.transfer past a).deferrals u =
      x.deferrals u + if l.transfer = u then
        (a.proceed (.retry interval m) x.store).1.isDeferred.toNat else 0 :=
    fun u => ht.deferralsOn_set hl _
  refine ⟨hsound, fun u => ?_, fun k hk => ?_⟩
  · rw [hcount u]
    show Checked m ((a.proceed (.retry interval m) x.store).2.1.transfers.get? u) _
    by_cases hu : u = a.transfer
    · subst hu
      rw [if_pos htransfer.symm]
      exact hchecked
    · rw [if_neg fun h => hu (h.symm.trans htransfer.symm), hother u hu]
      exact h.checked u
  · rcases List.mem_or_eq_of_mem_set hk with hk | rfl
    · exact h.kept k hk
    · exact hkept.takes ht hb

theorem Bounded.step (h : x.Bounded m) (e : Round) : (x.step (.retry interval m) e).Bounded m := by
  obtain hstep | ⟨t, hstep⟩ | ⟨w, hstep⟩ | ⟨i, l, past, a, hl, ht, hstep⟩ :=
    step_cases (.retry interval m) x e <;> rw [hstep]
  · exact h
  · exact h.schedule t
  · exact ⟨w.sound_run h.sound, fun t => w.checked_run h.sound (h.checked t), h.kept⟩
  · exact h.goOn hl ht

theorem Bounded.run (h : x.Bounded m) (rounds : List Round) :
    (x.run (.retry interval m) rounds).Bounded m :=
  run_invariant (P := Bounded m) (fun _ e h => h.step e) h rounds

theorem Bounded.length_attempts (h : x.Bounded m) {l : Loop} (hl : l ∈ x.loops) :
    l.attempts.length ≤ max m 1 ∧ (l.attempts.length = max m 1 → l.isReady = false) := by
  have hlt : x.deferrals l.transfer < max m 1 := (h.checked l.transfer).lt
  have hle : l.deferrals ≤ x.deferrals l.transfer := Loop.deferralsOn_le hl
  obtain ⟨hlength, hready⟩ := (h.kept l hl).length_le
  refine ⟨by omega, fun hlast => ?_⟩
  cases hr : l.isReady with
  | false => rfl
  | true =>
    have hfew := hready hr
    omega

theorem Bounded.step_of_processed (h : x.Bounded m) (ht : x.store.IsProcessed t) (policy : Policy)
    (e : Round) : (x.step policy e).store.IsProcessed t ∧
      (x.step policy e).lookups.count t = x.lookups.count t := by
  obtain hstep | ⟨u, hstep⟩ | ⟨w, hstep⟩ | ⟨i, l, past, a, hl, htakes, hstep⟩ :=
    step_cases policy x e <;> rw [hstep]
  · exact ⟨ht, rfl⟩
  · exact ⟨ht, rfl⟩
  · exact ⟨w.isProcessed_run h.sound ht, rfl⟩
  · have htransfer := (h.kept l (List.mem_of_getElem? hl)).transfer_of_takes htakes
    refine ⟨isProcessed_proceed policy h.sound a ht, ?_⟩
    show (if (a.proceed policy x.store).1.isAsking then x.lookups ++ [l.transfer]
      else x.lookups).count t = x.lookups.count t
    by_cases hl : l.transfer = t
    · have hasks := isAsking_proceed policy h.sound a (by rwa [htransfer, hl]) htakes.isEarly
      rw [hasks]
      rfl
    · split
      · rw [List.count_append, List.count_singleton, if_neg (by simpa using hl), Nat.add_zero]
      · rfl

theorem Bounded.lookups_run (h : x.Bounded m) (ht : x.store.IsProcessed t) (rounds : List Round) :
    (x.run (.retry interval m) rounds).lookups.count t = x.lookups.count t := by
  induction rounds generalizing x with
  | nil => rfl
  | cons e rounds ih =>
    obtain ⟨ht', hcount⟩ := h.step_of_processed ht (.retry interval m) e
    exact (ih (h.step e) ht').trans hcount

end Rounds
end Clearing
