import Clearing.Proofs.Addresses
import Clearing.Proofs.Latch
import Clearing.Transfer.Request
import Mathlib.Data.List.Induction

/-!
# What stays along a course

Whatever comes in which order, a number is given to one wallet only, which has
one owner, and a transfer keeps the terms it was stored on. A course of the
service is told by its moves. A call that reads in transactions before the one
that writes may find them past by then, so a request and a link say how many
moves ago they read.
-/

namespace Clearing

/-! ### Wallets keep their owners -/

namespace Store

variable {s s' s'' : Store} {id : Nat} {w v : Wallet}

def owner? (s : Store) (id : Nat) : Option Nat := (s.wallets.get? id).map Wallet.owner

theorem owner?_of_some (h : s.wallets.get? id = some w) : s.owner? id = some w.owner := by
  unfold owner?
  rw [h, Option.map_some]

/-- The store `s'` can come after `s`: a number that was given out by then is
that of the wallet it was, or of none. -/
structure Descends (s s' : Store) : Prop where
  lastWallet : s.lastWallet ≤ s'.lastWallet
  owner : ∀ {k owner}, k ≤ s.lastWallet → s'.owner? k = some owner → s.owner? k = some owner

namespace Descends

theorem of_owners (hlast : s.lastWallet ≤ s'.lastWallet)
    (howner : ∀ k ≤ s.lastWallet, s'.owner? k = s.owner? k) : s.Descends s' :=
  ⟨hlast, fun hk h => (howner _ hk).symm.trans h⟩

theorem refl (s : Store) : s.Descends s := .of_owners (Nat.le_refl _) fun _ _ => rfl

theorem trans (h : s.Descends s') (h' : s'.Descends s'') : s.Descends s'' where
  lastWallet := Nat.le_trans h.lastWallet h'.lastWallet
  owner hk howner := h.owner hk (h'.owner (Nat.le_trans hk h.lastWallet) howner)

end Descends

theorem owner?_reseat (hid : ∀ {k w}, s.wallets.get? k = some w → w.id = k)
    (hv : s.wallets.get? id = some v) (hw : w.id = id) (howner : w.owner = v.owner) (k : Nat) :
    (s.seat id w).owner? k = s.owner? k := by
  have hseat := map_get?_seat Wallet.owner (fun _ _ => rfl) hid hw k
  refine hseat.trans ?_
  split
  · rename_i hk
    rw [hk, howner]
    exact (owner?_of_some hv).symm
  · rfl

theorem owner?_congr (h : s'.wallets = s.wallets) (k : Nat) : s'.owner? k = s.owner? k := by
  unfold owner?
  rw [h]

theorem WalletCall.descends_run (h : s.Agrees) (call : WalletCall) : s.Descends (call.run s) := by
  have rowner : ∀ {s'}, s'.lastWallet = s.lastWallet → (∀ k, s'.owner? k = s.owner? k) →
      s.Descends s' := fun hlast howner =>
    .of_owners (Nat.le_of_eq hlast.symm) fun k _ => howner k
  cases call with
  | openWallet new =>
    refine after_of (.refl s) fun {w s'} hok => ?_
    obtain ⟨-, hw, rfl⟩ := openWallet_eq_ok.mp hok
    have hid : w.id = s.lastWallet + 1 := by rw [hw]; rfl
    have hlast : ({ s with lastWallet := w.id }.seat w.id w).lastWallet = w.id :=
      lastWallet_seat ..
    refine .of_owners ?_ fun k hk => ?_
    · show s.lastWallet ≤ ({ s with lastWallet := w.id }.seat w.id w).lastWallet
      omega
    · have hseat := map_get?_seat (s := { s with lastWallet := w.id }) (w := w) Wallet.owner
        (fun _ _ => rfl) h.wallet_id rfl k
      exact hseat.trans (if_neg (by omega))
  | makeDefault owner id =>
    refine after_of (.refl s) fun {w s'} hok => ?_
    obtain ⟨v, hv, -, hw, rfl⟩ := makeDefault_eq_ok.mp hok
    have hvid : v.id = id := h.wallet_id hv
    have hid : w.id = id := by
      rw [hw]
      exact hvid
    exact rowner (lastWallet_seat ..) (owner?_reseat h.wallet_id hv hid (by rw [hw]))
  | changeWallet id change =>
    refine after_of (.refl s) fun {w s'} hok => ?_
    obtain ⟨v, t, hv, hw, ht, rfl⟩ := changeWallet_eq_ok.mp hok
    have hvid : v.id = id := h.wallet_id hv
    have hid : w.id = id := by
      rw [hw]
      exact hvid
    have hmove : t.wallets = s.wallets ∧ t.lastWallet = s.lastWallet := by
      obtain ⟨-, rfl⟩ | ⟨-, -, rfl⟩ := readdress_eq_ok.mp ht
      · exact ⟨rfl, rfl⟩
      · exact ⟨rfl, rfl⟩
    have hrows : (t.vacate id v).wallets = s.wallets := by rw [wallets_vacate, hmove.1]
    refine rowner ?_ fun k => ?_
    · rw [lastWallet_seat, lastWallet_vacate, hmove.2]
    · rw [← owner?_congr hrows k]
      rw [← hrows] at hv
      exact owner?_reseat (by rw [hrows]; exact h.wallet_id) hv hid (by rw [hw]; rfl) k
  | closeWallet id =>
    refine after_of (.refl s) fun {w s'} hok => ?_
    obtain ⟨hw, rfl⟩ := closeWallet_eq_ok.mp hok
    have hlast := lastWallet_leaveSlot
      { s with wallets := s.wallets.erase id, addresses := s.addresses.erase w.address }
      (walletKey w) id
    refine ⟨Nat.le_of_eq hlast.symm, fun {k owner} _ howner => ?_⟩
    rw [owner?_congr (wallets_leaveSlot ..)] at howner
    unfold owner? at howner
    rw [Table.get?_erase] at howner
    split at howner
    · cases howner
    · exact howner
  | rebalance id compute =>
    refine after_of (.refl s) fun {w s'} hok => ?_
    obtain ⟨v, b, hv, -, -, rfl⟩ := rebalance_eq_ok.mp hok
    refine rowner rfl fun k => ?_
    unfold owner?
    rw [get?_putWallet]
    split
    · rename_i hk
      have hid : v.id = id := h.wallet_id hv
      rw [hk]
      show _ = (s.wallets.get? v.id).map _
      rw [hid, hv]
      rfl
    · rfl

def register (s : Store) : Table Nat Wallet × Table String Nat × Table String Nat × Nat :=
  (s.wallets, s.addresses, s.defaults, s.lastWallet)

theorem Descends.of_register (h : s'.register = s.register) : s.Descends s' := by
  unfold register at h
  simp only [Prod.mk.injEq] at h
  exact .of_owners (Nat.le_of_eq h.2.2.2.symm) fun k _ => owner?_congr h.1 k

theorem Indexed.of_register (hi : s.Indexed) (h : s'.register = s.register) : s'.Indexed := by
  unfold register at h
  simp only [Prod.mk.injEq] at h
  exact hi.congr (hi.toAgreesOn.congr h.1 h.2.2.1 (Nat.le_of_eq h.2.2.2.symm))
    (address?_congr h.1) h.2.1

end Store

/-! ### Transfers keep their terms -/

/-- What is agreed upon in a transfer, and is not changed by its settlement. -/
def Transfer.terms (t : Transfer) : NewTransfer where
  source := t.source
  receiver := t.receiver
  amount := t.amount
  priceCurrency := t.priceCurrency
  payCurrency := t.payCurrency
  comment := t.comment
  sender := t.sender
  receiverAddress := t.receiverAddress
  linkedTx := none

def NewTransfer.terms (new : NewTransfer) : NewTransfer := { new with linkedTx := none }

section Turns

variable {policy : Policy} {s s' : Store} {id : Nat} {σ τ : Attempt.Stage} {d : Option Deed}

theorem Attempt.Turn.wallets (h : Turn policy s id σ d τ s') :
    s'.register = s.register ∨ ∃ op : Ledger.Op, s' = op.run s := by
  have asked : ∀ {r : Except LedgerFault (Int × Store)} {b}, r = .ok (b, s') → s' = s.after r := by
    intro r b hr
    rw [hr]
    rfl
  cases h with
  | @debited q b s' h => exact .inr ⟨.debit q.source q.amount, asked h⟩
  | @credited q b s' h => exact .inr ⟨.credit q.receiver q.amount, asked h⟩
  | @refunded q b s' h => exact .inr ⟨.credit q.source q.amount, asked h⟩
  | waits | ended | missing | late | opened | unlinked | counted | claimed | closed | debitRefused
  | creditRefused | refundRefused | finished | reported => exact .inl rfl

theorem Attempt.Turn.terms (hs : s.Sound) (h : Turn policy s id σ d τ s') {t : Nat} {r : Transfer}
    (hr : s.transfers.get? t = some r) :
    ∃ r', s'.transfers.get? t = some r' ∧ r'.terms = r.terms := by
  by_cases ht : t = id
  · subst ht
    have rewritten : ∀ {q q' : Transfer}, s.transfers.get? t = some q → q'.id = q.id →
        q'.terms = q.terms →
        ∃ r', (s.putTransfer q').transfers.get? t = some r' ∧ r'.terms = r.terms := by
      intro q q' hq hid hterms
      rw [hr] at hq
      cases hq
      exact ⟨q', hs.get?_rewrite hr hid, hterms⟩
    cases h with
    | counted hq _ _ => exact rewritten hq rfl rfl
    | claimed hq _ => exact rewritten hq rfl rfl
    | closed hq _ => exact rewritten hq rfl rfl
    | finished hq => exact rewritten hq rfl rfl
    | debited h => exact ⟨r, by rw [Ledger.transfers_debit h, hr], rfl⟩
    | credited h => exact ⟨r, by rw [Ledger.transfers_credit h, hr], rfl⟩
    | refunded h => exact ⟨r, by rw [Ledger.transfers_credit h, hr], rfl⟩
    | waits | ended | missing | late | opened | unlinked | debitRefused | creditRefused
    | refundRefused | reported => exact ⟨r, hr, rfl⟩
  · exact ⟨r, by rw [h.row_ne hs ht, hr], rfl⟩

theorem Attempt.Turn.none_of_none (hs : s.Sound) (h : Turn policy s id σ d τ s') {t : Nat}
    (ht : s.transfers.get? t = none) : s'.transfers.get? t = none := by
  by_cases hid : t = id
  · subst hid
    have absurd_row : ∀ {q : Transfer} {P : Prop}, s.transfers.get? t = some q → P := by
      intro q P hq
      rw [ht] at hq
      cases hq
    cases h with
    | counted hq _ _ => exact absurd_row hq
    | claimed hq _ => exact absurd_row hq
    | closed hq _ => exact absurd_row hq
    | finished hq => exact absurd_row hq
    | debited h => rw [Ledger.transfers_debit h, ht]
    | credited h => rw [Ledger.transfers_credit h, ht]
    | refunded h => rw [Ledger.transfers_credit h, ht]
    | waits | ended | missing | late | opened | unlinked | debitRefused | creditRefused
    | refundRefused | reported => exact ht
  · rw [h.row_ne hs hid, ht]

theorem Attempt.Turn.of_balance_lt (hs : s.Sound) (h : Turn policy s id σ d τ s') {k : Nat}
    (hlt : s'.balance k < s.balance k) :
    (∃ amount, d = some (.debited k amount)) ∧ ∃ v, s.wallets.get? k = some v := by
  have hbalance := h.balance hs k
  cases h with
  | @debited q b s' h =>
    obtain ⟨v, hv, -⟩ := Ledger.debit_eq_ok.mp h
    by_cases hk : k = q.source
    · exact ⟨⟨q.amount, by rw [hk]⟩, v, by rw [hk, hv]⟩
    · simp only [Option.elim_some, Deed.gain, if_neg hk] at hbalance
      omega
  | @credited q b s' h =>
    obtain ⟨v, hv, hpos, -⟩ := Ledger.credit_eq_ok.mp h
    simp only [Option.elim_some, Deed.gain] at hbalance
    split at hbalance <;> omega
  | @refunded q b s' h =>
    obtain ⟨v, hv, hpos, -⟩ := Ledger.credit_eq_ok.mp h
    simp only [Option.elim_some, Deed.gain] at hbalance
    split at hbalance <;> omega
  | waits | ended | missing | late | opened | unlinked | counted | claimed | closed | debitRefused
  | creditRefused | refundRefused | finished | reported =>
    exact absurd hlt (Int.lt_irrefl _)

theorem Attempt.Turn.of_lt_balance (hs : s.Sound) (h : Turn policy s id σ d τ s') {k : Nat}
    (hlt : s.balance k < s'.balance k) :
    (∃ amount, d = some (.credited k amount) ∨ d = some (.refunded k amount)) ∧
      ∃ v, s.wallets.get? k = some v := by
  have hbalance := h.balance hs k
  cases h with
  | @debited q b s' h =>
    obtain ⟨v, hv, hpos, -⟩ := Ledger.debit_eq_ok.mp h
    simp only [Option.elim_some, Deed.gain] at hbalance
    split at hbalance <;> omega
  | @credited q b s' h =>
    obtain ⟨v, hv, -⟩ := Ledger.credit_eq_ok.mp h
    by_cases hk : k = q.receiver
    · exact ⟨⟨q.amount, .inl (by rw [hk])⟩, v, by rw [hk, hv]⟩
    · simp only [Option.elim_some, Deed.gain, if_neg hk] at hbalance
      omega
  | @refunded q b s' h =>
    obtain ⟨v, hv, -⟩ := Ledger.credit_eq_ok.mp h
    by_cases hk : k = q.source
    · exact ⟨⟨q.amount, .inr (by rw [hk])⟩, v, by rw [hk, hv]⟩
    · simp only [Option.elim_some, Deed.gain, if_neg hk] at hbalance
      omega
  | waits | ended | missing | late | opened | unlinked | counted | claimed | closed | debitRefused
  | creditRefused | refundRefused | finished | reported =>
    exact absurd hlt (Int.lt_irrefl _)

end Turns

namespace World

variable {policy : Policy} {w : World}

/-! ### Event by event -/

theorem wallets_step (policy : Policy) (w : World) (e : Event) :
    (w.step policy e).store.register = w.store.register ∨
      ∃ op : Ledger.Op, (w.step policy e).store = op.run w.store := by
  cases e with
  | begin _ | create _ | payments _ => exact .inl rfl
  | ledger op => exact .inr ⟨op, rfl⟩
  | act i =>
    cases ha : w.attempts[i]? with
    | none =>
      rw [step_act_none policy ha]
      exact .inl rfl
    | some a =>
      rw [step_act policy ha]
      exact (Attempt.turn_step policy w.store a).wallets
  | answer i depth =>
    obtain h | ⟨a, tx, -, -, h⟩ := step_answer policy w i depth
    · exact .inl (by rw [h])
    · rw [h]
      exact .inl rfl
  | link t tx =>
    obtain h | ⟨r, -, -, h⟩ := step_link policy w t tx
    · exact .inl (by rw [h])
    · rw [h]
      exact .inl rfl

theorem indexed_step (h : w.store.Indexed) (e : Event) : (w.step policy e).store.Indexed := by
  obtain hsame | ⟨op, hop⟩ := wallets_step policy w e
  · exact h.of_register hsame
  · obtain ⟨call, hcall⟩ := op.run_eq_call w.store
    rw [hop, hcall]
    exact call.indexed_run h

theorem descends_step (h : w.store.Indexed) (e : Event) :
    w.store.Descends (w.step policy e).store := by
  obtain hsame | ⟨op, hop⟩ := wallets_step policy w e
  · exact .of_register hsame
  · obtain ⟨call, hcall⟩ := op.run_eq_call w.store
    rw [hop, hcall]
    exact call.descends_run h.toAgreesOn

theorem terms_step (hs : w.store.Sound) (e : Event) {t : Nat} {r : Transfer}
    (hr : w.store.transfers.get? t = some r) :
    ∃ r', (w.step policy e).store.transfers.get? t = some r' ∧ r'.terms = r.terms := by
  by_cases hact : ∃ i, e = .act i
  · obtain ⟨i, rfl⟩ := hact
    cases ha : w.attempts[i]? with
    | none =>
      rw [step_act_none policy ha]
      exact ⟨r, hr, rfl⟩
    | some a =>
      rw [step_act policy ha]
      exact (Attempt.turn_step policy w.store a).terms hs hr
  · obtain hrow | ⟨hnone, -⟩ | ⟨q, tx, -, hq, -, hrow⟩ :=
      row_of_other policy hs (fun i hi => hact ⟨i, hi⟩) t
    · exact ⟨r, by rw [hrow, hr], rfl⟩
    · rw [hr] at hnone
      cases hnone
    · rw [hr] at hq
      cases hq
      exact ⟨_, hrow, rfl⟩

theorem created_step (hs : w.store.Sound) (e : Event) {t : Nat} {r : Transfer}
    (hnone : w.store.transfers.get? t = none)
    (hr : (w.step policy e).store.transfers.get? t = some r) :
    ∃ new, e = .create new ∧ r.terms = new.terms := by
  have absurd_same : ∀ {s : Store} {P : Prop}, s.transfers.get? t = some r →
      s.transfers.get? t = w.store.transfers.get? t → P := by
    intro s P hr hsame
    rw [hsame, hnone] at hr
    cases hr
  cases e with
  | begin _ | payments _ => exact absurd_same hr rfl
  | ledger op =>
    have hkept : (op.run w.store).transfers = w.store.transfers :=
      (Ledger.Op.moves_run hs op).transfers
    exact absurd_same hr (by rw [← hkept]; rfl)
  | act i =>
    cases ha : w.attempts[i]? with
    | none => exact absurd_same hr (by rw [step_act_none policy ha])
    | some a =>
      rw [step_act policy ha] at hr
      have hnone' := (Attempt.turn_step policy w.store a).none_of_none hs hnone
      exact absurd_same hr (hnone'.trans hnone.symm)
  | answer i depth =>
    obtain h | ⟨a, tx, -, -, h⟩ := step_answer policy w i depth
    · exact absurd_same hr (by rw [h])
    · exact absurd_same hr (by rw [h]; rfl)
  | link t' tx =>
    obtain h | ⟨q, hq, -, h⟩ := step_link policy w t' tx
    · exact absurd_same hr (by rw [h])
    · have hne : t ≠ t' := by
        rintro rfl
        rw [hnone] at hq
        cases hq
      refine absurd_same hr ?_
      rw [h]
      refine (Store.get?_putTransfer ..).trans (if_neg ?_)
      show t ≠ q.id
      rw [hs.transfer_id hq]
      exact hne
  | create new =>
    have hput : (w.step policy (.create new)).store.transfers.get? t =
        if t = w.store.lastTransfer + 1 then some (w.store.addTransfer new).1
        else w.store.transfers.get? t := Store.get?_putTransfer ..
    rw [hput] at hr
    split at hr
    · cases hr
      exact ⟨new, rfl, rfl⟩
    · rw [hnone] at hr
      cases hr

/-! ### Courses -/

inductive Move
  | begin (transfer : Nat)
  | act (attempt : Nat)
  | answer (attempt : Nat) (depth : Except NodeFault Int)
  | ledger (op : Ledger.Op)
  | payments (rows : Table String Payment)
  /-- A request for a transfer is stored, if it passes. It has read its source
  `i` moves ago and its receiver `j` moves ago; in one go `i` and `j` are 0. -/
  | request (r : TransferRequest) (i j : Nat)
  /-- A user links a transaction to a transfer that was read `i` moves ago. -/
  | attach (transfer sender : Nat) (tx : String) (i : Nat)

/-- The world as it was so many moves ago. The worlds stand with the newest
first; before the first move the world was empty. -/
def ago (ws : List World) (n : Nat) : World := ws[n]?.getD empty

/-- What a move comes to; what is refused comes to nothing. -/
def Move.event? (ws : List World) : Move → Option Event
  | .begin t => some (.begin t)
  | .act i => some (.act i)
  | .answer i depth => some (.answer i depth)
  | .ledger op => some (.ledger op)
  | .payments rows => some (.payments rows)
  | .request r i j =>
    match r.checkRead (Ledger.wallet (ago ws i).store r.source)
      (Ledger.walletAt (ago ws j).store r.receiverAddress) with
    | .ok new => some (.create new)
    | .error _ => none
  | .attach t sender tx i =>
    match (ago ws i).store.mayAttach t sender tx with
    | .ok _ => some (.link t tx)
    | .error _ => none

def next (policy : Policy) (ws : List World) (m : Move) : World :=
  match m.event? ws with
  | some e => (ago ws 0).step policy e
  | none => ago ws 0

/-- A request that reads and writes in one go is that of the store. -/
theorem next_request (policy : Policy) (ws : List World) (r : TransferRequest) :
    (next policy ws (.request r 0 0)).store =
      (ago ws 0).store.after ((ago ws 0).store.requestTransfer r) := by
  unfold next Store.requestTransfer TransferRequest.check
  simp only [Move.event?]
  cases r.checkRead (Ledger.wallet (ago ws 0).store r.source)
      (Ledger.walletAt (ago ws 0).store r.receiverAddress) with
  | error fault => rfl
  | ok new => rfl

theorem next_attach (policy : Policy) (ws : List World) (t sender : Nat) (tx : String) :
    (next policy ws (.attach t sender tx 0)).store =
      (ago ws 0).store.after ((ago ws 0).store.attachTx t sender tx) := by
  unfold next Store.attachTx
  simp only [Move.event?]
  cases (ago ws 0).store.mayAttach t sender tx with
  | error fault => rfl
  | ok _ =>
    simp only [step]
    cases (ago ws 0).store.linkTx t tx with
    | error fault => rfl
    | ok q =>
      obtain ⟨o, s⟩ := q
      cases o with
      | none => rfl
      | some r => rfl

/-- The worlds after each of the moves, the newest first. -/
def course (policy : Policy) (moves : List Move) : List World :=
  moves.foldl (fun ws m => next policy ws m :: ws) []

theorem course_concat (policy : Policy) (moves : List Move) (m : Move) :
    course policy (moves ++ [m]) = next policy (course policy moves) m :: course policy moves := by
  unfold course
  rw [List.foldl_append]
  rfl

theorem ago_course_append (policy : Policy) (before after : List Move) (n : Nat) :
    ago (course policy (before ++ after)) (after.length + n) = ago (course policy before) n := by
  induction after using List.reverseRecOn with
  | nil => rw [List.append_nil, List.length_nil, Nat.zero_add]
  | append_singleton after m ih =>
    have hlen : (after ++ [m]).length + n = (after.length + n) + 1 := by
      rw [List.length_append, List.length_singleton]
      omega
    rw [← List.append_assoc, course_concat, hlen]
    exact ih

theorem course_invariant {P : World → Prop} (hstep : ∀ w e, P w → P (w.step policy e))
    (hempty : P empty) (moves : List Move) (n : Nat) : P (ago (course policy moves) n) := by
  induction moves using List.reverseRecOn generalizing n with
  | nil => exact hempty
  | append_singleton moves m ih =>
    rw [course_concat]
    cases n with
    | succ n => exact ih n
    | zero =>
      show P (next policy (course policy moves) m)
      unfold next
      split
      · exact hstep _ _ (ih 0)
      · exact ih 0

theorem inv_course (policy : Policy) (moves : List Move) (n : Nat) :
    (ago (course policy moves) n).Inv :=
  course_invariant (P := Inv) (fun _ e h => inv_step h e) inv_empty moves n

theorem indexed_course (policy : Policy) (moves : List Move) (n : Nat) :
    (ago (course policy moves) n).store.Indexed :=
  course_invariant (P := fun w => w.store.Indexed) (fun _ e h => indexed_step h e)
    Store.indexed_empty moves n

theorem course_relation {R : World → World → Prop} (hrefl : ∀ w, R w w)
    (htrans : ∀ {u v w}, R u v → R v w → R u w)
    (hstep : ∀ {w} e, w.Inv → w.store.Indexed → R w (w.step policy e)) (moves : List Move)
    {i j : Nat} (hij : i ≤ j) : R (ago (course policy moves) j) (ago (course policy moves) i) := by
  induction moves using List.reverseRecOn generalizing i j with
  | nil => exact hrefl empty
  | append_singleton moves m ih =>
    have hnext : R (ago (course policy moves) 0) (next policy (course policy moves) m) := by
      unfold next
      split
      · exact hstep _ (inv_course policy moves 0) (indexed_course policy moves 0)
      · exact hrefl _
    rw [course_concat]
    cases j with
    | zero =>
      cases Nat.le_zero.mp hij
      exact hrefl _
    | succ j =>
      cases i with
      | zero => exact htrans (ih (Nat.zero_le j)) hnext
      | succ i => exact ih (Nat.le_of_succ_le_succ hij)

theorem descends_course (policy : Policy) (moves : List Move) {i j : Nat} (hij : i ≤ j) :
    (ago (course policy moves) j).store.Descends (ago (course policy moves) i).store :=
  course_relation (R := fun w w' => w.store.Descends w'.store) (fun w => .refl w.store)
    (fun h h' => h.trans h') (fun e _ h => descends_step h e) moves hij

theorem terms_course (policy : Policy) (moves : List Move) {i j : Nat} (hij : i ≤ j) {t : Nat}
    {r : Transfer} (hr : (ago (course policy moves) j).store.transfers.get? t = some r) :
    ∃ r', (ago (course policy moves) i).store.transfers.get? t = some r' ∧ r'.terms = r.terms := by
  refine course_relation
    (R := fun w w' => ∀ r, w.store.transfers.get? t = some r →
      ∃ r', w'.store.transfers.get? t = some r' ∧ r'.terms = r.terms)
    (fun w r hr => ⟨r, hr, rfl⟩) (fun h h' r hr => ?_)
    (fun e hi _ r hr => terms_step hi.sound e hr) moves hij r hr
  obtain ⟨r', hr', hterms⟩ := h r hr
  obtain ⟨r'', hr'', hterms'⟩ := h' r' hr'
  exact ⟨r'', hr'', hterms'.trans hterms⟩

end World
end Clearing
