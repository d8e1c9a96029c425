import Clearing.Proofs.Courses

/-!
# Whose wallets a transfer moves

Who owns the source and which wallet is at the receiver's address is checked
when a transfer is asked for, and not again when it is settled. What carries
the checks over is that numbers never change hands: whatever is closed, moved
to another address or opened at an address that was freed, the numbers in a
transfer lead to the wallets they led to, or to none.
-/

namespace Clearing

/-! ### Who asked for a transfer -/

section Checks

variable {ε ε' α β : Type} {b : β}

theorem bind_eq_ok {x : Except ε α} {f : α → Except ε β} :
    x >>= f = .ok b ↔ ∃ a, x = .ok a ∧ f a = .ok b := by
  cases x <;> simp [bind, Except.bind]

theorem mapError_eq_ok {x : Except ε β} {f : ε → ε'} : x.mapError f = .ok b ↔ x = .ok b := by
  cases x <;> simp [Except.mapError]

theorem Denial.check_eq_ok {user owner : Nat} {label : String} :
    Denial.check user owner label = .ok () ↔ owner = user := by
  unfold check
  split
  · rename_i h
    exact iff_of_true rfl h
  · rename_i h
    exact iff_of_false (by simp) h

theorem Ledger.wallet_eq_ok {s : Store} {id : Nat} {w : Wallet} :
    Ledger.wallet s id = .ok w ↔ s.wallets.get? id = some w :=
  mapError_eq_ok.trans Store.wallet_eq_ok

theorem Ledger.walletAt_eq_ok {s : Store} {address : String} {w : Wallet} :
    Ledger.walletAt s address = .ok w ↔ s.walletAt? address = some w := by
  unfold walletAt
  cases s.walletAt? address <;> simp

end Checks

theorem TransferRequest.checkRead_eq_ok {r : TransferRequest}
    {source receiver : Except LedgerFault Wallet} {new : NewTransfer}
    (h : r.checkRead source receiver = .ok new) :
    ∃ v u, source = .ok v ∧ v.owner = r.sender ∧ receiver = .ok u ∧ new = {
      source := v.id, receiver := u.id, amount := r.amount, priceCurrency := r.priceCurrency
      payCurrency := r.payCurrency, comment := r.comment, sender := r.sender
      receiverAddress := r.receiverAddress, linkedTx := r.linkedTx } := by
  simp only [checkRead] at h
  split at h
  · obtain ⟨_, hthrow, -⟩ := bind_eq_ok.mp h
    cases hthrow
  · obtain ⟨v, hv, h⟩ := bind_eq_ok.mp h
    obtain ⟨_, howner, h⟩ := bind_eq_ok.mp h
    obtain ⟨u, hu, h⟩ := bind_eq_ok.mp h
    refine ⟨v, u, mapError_eq_ok.mp hv, Denial.check_eq_ok.mp (mapError_eq_ok.mp howner),
      mapError_eq_ok.mp hu, ?_⟩
    split at h
    · obtain ⟨_, hthrow, -⟩ := bind_eq_ok.mp h
      cases hthrow
    · split at h
      · obtain ⟨_, -, h⟩ := bind_eq_ok.mp h
        cases h
        rfl
      · cases h
        rfl

namespace Store

variable {s : Store} {id sender : Nat}

theorem mayAttach_of_other (h : ∀ t, s.transfers.get? id = some t → sender ≠ t.sender)
    (tx : String) : ∃ fault, s.mayAttach id sender tx = .error fault := by
  cases hok : s.mayAttach id sender tx with
  | error fault => exact ⟨fault, rfl⟩
  | ok _ =>
    unfold mayAttach at hok
    obtain ⟨_, -, hok⟩ := bind_eq_ok.mp hok
    obtain ⟨t, ht, hok⟩ := bind_eq_ok.mp hok
    have howner := Denial.check_eq_ok.mp (mapError_eq_ok.mp hok)
    exact absurd howner.symm (h t (transfer_eq_ok.mp (mapError_eq_ok.mp ht)))

theorem attachTx_of_other (h : ∀ t, s.transfers.get? id = some t → sender ≠ t.sender)
    (tx : String) : ∃ fault, s.attachTx id sender tx = .error fault := by
  obtain ⟨fault, hfault⟩ := mayAttach_of_other h tx
  refine ⟨fault, ?_⟩
  unfold attachTx
  rw [hfault]
  rfl

end Store

namespace World

/-- After the moves `before` the transfer `id` was stored on the terms of `t`,
by a request that had found the source as `payer`, `i` moves before, and the
receiver as `payee`, `j` moves before. -/
structure Asked (policy : Policy) (before : List Move) (r : TransferRequest) (i j : Nat)
    (payer payee : Wallet) (id : Nat) (t : Transfer) : Prop where
  unused : (ago (course policy before) 0).store.transfers.get? id = none
  stored : ∃ t₀, (ago (course policy (before ++ [.request r i j])) 0).store.transfers.get? id =
    some t₀ ∧ t₀.terms = t.terms
  sender : t.sender = r.sender
  source : (ago (course policy before) i).store.wallets.get? t.source = some payer
  owner : payer.owner = t.sender
  receiver : (ago (course policy before) j).store.walletAt? t.receiverAddress = some payee
  number : payee.id = t.receiver
  address : payee.address = t.receiverAddress

theorem Asked.of_terms {policy : Policy} {before : List Move} {r : TransferRequest} {i j : Nat}
    {payer payee : Wallet} {id : Nat} {t t' : Transfer}
    (h : Asked policy before r i j payer payee id t) (hterms : t.terms = t'.terms) :
    Asked policy before r i j payer payee id t' := by
  obtain ⟨t₀, ht₀, hterms₀⟩ := h.stored
  have hsource : t.source = t'.source := congrArg NewTransfer.source hterms
  have hreceiver : t.receiver = t'.receiver := congrArg NewTransfer.receiver hterms
  have hsender : t.sender = t'.sender := congrArg NewTransfer.sender hterms
  have hat : t.receiverAddress = t'.receiverAddress := congrArg NewTransfer.receiverAddress hterms
  exact {
    unused := h.unused
    stored := ⟨t₀, ht₀, hterms₀.trans hterms⟩
    sender := hsender ▸ h.sender
    source := hsource ▸ h.source
    owner := hsender ▸ h.owner
    receiver := hat ▸ h.receiver
    number := hreceiver ▸ h.number
    address := hat ▸ h.address }

theorem event?_eq_create {ws : List World} {m : Move} {new : NewTransfer}
    (h : m.event? ws = some (.create new)) :
    ∃ r i j, m = .request r i j ∧
      r.checkRead (Ledger.wallet (ago ws i).store r.source)
        (Ledger.walletAt (ago ws j).store r.receiverAddress) = .ok new := by
  cases m with
  | request r i j =>
    refine ⟨r, i, j, rfl, ?_⟩
    simp only [Move.event?] at h
    split at h
    · rename_i hcheck
      cases h
      exact hcheck
    · cases h
  | attach t sender tx i =>
    simp only [Move.event?] at h
    split at h
    · cases h
    · cases h
  | begin | act | answer | ledger | payments => cases h

variable {policy : Policy} {moves : List Move} {w : World} {id : Nat} {t : Transfer}

theorem asked_of_created {m : Move} {new : NewTransfer}
    (hnone : (ago (course policy moves) 0).store.transfers.get? id = none)
    (hstored : (next policy (course policy moves) m).store.transfers.get? id = some t)
    (hevent : m.event? (course policy moves) = some (.create new)) (hterms : t.terms = new.terms) :
    ∃ r i j payer payee, m = .request r i j ∧ Asked policy moves r i j payer payee id t := by
  obtain ⟨r, i, j, rfl, hcheck⟩ := event?_eq_create hevent
  obtain ⟨v, u, hv, howner, hu, -, -, rfl⟩ := TransferRequest.checkRead_eq_ok hcheck
  have hrow := Ledger.wallet_eq_ok.mp hv
  have hvid : v.id = r.source := (indexed_course policy moves i).wallet_id hrow
  have hfound := Ledger.walletAt_eq_ok.mp hu
  have haddress := (Store.walletAt?_eq_some (indexed_course policy moves j)).mp hfound
  have hsource : t.source = v.id := congrArg NewTransfer.source hterms
  have hreceiver : t.receiver = u.id := congrArg NewTransfer.receiver hterms
  have hsender : t.sender = r.sender := congrArg NewTransfer.sender hterms
  have hat : t.receiverAddress = r.receiverAddress := congrArg NewTransfer.receiverAddress hterms
  refine ⟨r, i, j, v, u, rfl, hnone, ⟨t, ?_, rfl⟩, hsender, ?_, howner.trans hsender.symm, ?_,
    hreceiver.symm, haddress.2.trans hat.symm⟩
  · rw [course_concat]
    exact hstored
  · rw [hsource, hvid, hrow]
  · rw [hat, hfound]

/-- Every transfer was asked for by the owner of its source. -/
theorem asked (policy : Policy) (moves : List Move) (id : Nat) (t : Transfer)
    (ht : (ago (course policy moves) 0).store.transfers.get? id = some t) :
    ∃ before r i j after payer payee, moves = before ++ .request r i j :: after ∧
      Asked policy before r i j payer payee id t := by
  induction moves using List.reverseRecOn generalizing t with
  | nil => simp [course, ago, empty, Store.empty] at ht
  | append_singleton moves m ih =>
    have hs := (inv_course policy moves 0).sound
    rw [course_concat] at ht
    replace ht : (next policy (course policy moves) m).store.transfers.get? id = some t := ht
    cases hold : (ago (course policy moves) 0).store.transfers.get? id with
    | some r =>
      -- it was there, on the same terms
      have hterms : r.terms = t.terms := by
        have hthen : (ago (course policy (moves ++ [m])) 1).store.transfers.get? id = some r := by
          rw [course_concat]
          exact hold
        obtain ⟨r', hr', hterms⟩ := terms_course policy (moves ++ [m]) (Nat.zero_le 1) hthen
        rw [course_concat] at hr'
        cases ht.symm.trans hr'
        exact hterms.symm
      obtain ⟨before, q, i, j, after, payer, payee, rfl, hasked⟩ := ih r hold
      exact ⟨before, q, i, j, after ++ [m], payer, payee, by simp, hasked.of_terms hterms⟩
    | none =>
      cases hevent : m.event? (course policy moves) with
      | none =>
        unfold next at ht
        rw [hevent] at ht
        replace ht : (ago (course policy moves) 0).store.transfers.get? id = some t := ht
        rw [hold] at ht
        cases ht
      | some e =>
        have hnext :
            next policy (course policy moves) m = (ago (course policy moves) 0).step policy e := by
          unfold next
          rw [hevent]
        obtain ⟨new, rfl, hterms⟩ := created_step hs e hold (hnext ▸ ht)
        obtain ⟨r, i, j, payer, payee, rfl, hasked⟩ := asked_of_created hold ht hevent hterms
        exact ⟨moves, r, i, j, [], payer, payee, rfl, hasked⟩

/-! ### The wallets of a transfer, later on -/

theorem stays_course (policy : Policy) (moves : List Move) {k n : Nat} {u v : Wallet}
    (hu : (ago (course policy moves) n).store.wallets.get? k = some u)
    (hv : (ago (course policy moves) 0).store.wallets.get? k = some v) {l : Nat} (hl : l ≤ n) :
    ∃ x, (ago (course policy moves) l).store.wallets.get? k = some x ∧ x.owner = u.owner := by
  have hthen := descends_course policy moves hl
  have hsince := descends_course policy moves (Nat.zero_le l)
  have hk : k ≤ (ago (course policy moves) n).store.lastWallet :=
    (indexed_course policy moves n).wallet_le hu
  have howner := hsince.owner (Nat.le_trans hk hthen.lastWallet) (Store.owner?_of_some hv)
  have howner' := hthen.owner hk howner
  unfold Store.owner? at howner
  obtain ⟨x, hx, hxv⟩ := Option.map_eq_some_iff.mp howner
  rw [Store.owner?_of_some hu] at howner'
  exact ⟨x, hx, hxv.trans (Option.some.inj howner').symm⟩

namespace Asked

variable {before after : List Move} {r : TransferRequest} {i j k : Nat} {payer payee v : Wallet}

theorem payer_stays (h : Asked policy before r i j payer payee id t)
    (hv : (ago (course policy (before ++ .request r i j :: after)) 0).store.wallets.get? t.source =
      some v) {l : Nat} (hl : l ≤ after.length + 1 + i) :
    ∃ x, (ago (course policy (before ++ .request r i j :: after)) l).store.wallets.get? t.source =
      some x ∧ x.owner = t.sender := by
  have hthen := ago_course_append policy before (.request r i j :: after) i
  have hpayer := h.source
  rw [← hthen] at hpayer
  obtain ⟨x, hx, howner⟩ := stays_course policy _ hpayer hv hl
  exact ⟨x, hx, howner.trans h.owner⟩

theorem payee_stays (h : Asked policy before r i j payer payee id t)
    (hv : (ago (course policy (before ++ .request r i j :: after)) 0).store.wallets.get?
      t.receiver = some v) {l : Nat} (hl : l ≤ after.length + 1 + j) :
    ∃ x, (ago (course policy (before ++ .request r i j :: after)) l).store.wallets.get? t.receiver =
      some x ∧ x.owner = payee.owner := by
  have hthen := ago_course_append policy before (.request r i j :: after) j
  have hpayee := ((Store.walletAt?_eq_some (indexed_course policy before j)).mp h.receiver).1
  rw [h.number, ← hthen] at hpayee
  exact stays_course policy _ hpayee hv hl

theorem there_before (h : Asked policy before r i j payer payee id t)
    (hk : k = t.receiver ∨ k = t.source)
    (hv : (ago (course policy (before ++ .request r i j :: after)) 0).store.wallets.get? k =
      some v) :
    ∃ x, (ago (course policy before) 0).store.wallets.get? k = some x := by
  rw [← ago_course_append policy before (.request r i j :: after) 0]
  obtain rfl | rfl := hk
  · obtain ⟨x, hx, -⟩ := h.payee_stays hv (Nat.le_add_right (after.length + 1) j)
    exact ⟨x, hx⟩
  · obtain ⟨x, hx, -⟩ := h.payer_stays hv (Nat.le_add_right (after.length + 1) i)
    exact ⟨x, hx⟩

end Asked

/-! ### What settlement moves -/

section Acts

variable {n k : Nat} {a : Attempt}

theorem Inv.atMostOnce_act (policy : Policy) (hi : w.Inv) (ha : w.attempts[n]? = some a)
    (ht : w.store.transfers.get? a.transfer = some t) {d : Deed}
    (hd : a.deed? w.store = some d) (hb : d.binds = true) :
    ∃ r ds, AtMostOnce r ds ∧ d ∈ ds ∧ r.terms = t.terms := by
  have hi' : (w.step policy (.act n)).Inv := inv_step hi _
  have hrow : ∃ r, (w.step policy (.act n)).store.transfers.get? a.transfer = some r ∧
      r.terms = t.terms := terms_step hi.sound _ ht
  obtain ⟨r, hr, hterms⟩ := hrow
  refine ⟨r, _, (hi'.latched a.transfer).atMostOnce hr, ?_, hterms⟩
  rw [step_act policy ha, deeds_goOn_self, hd]
  simp [Option.filter, hb]

theorem Inv.not_binds_act (policy : Policy) (hi : w.Inv) (ha : w.attempts[n]? = some a)
    (ht : w.store.transfers.get? a.transfer = none) {d : Deed}
    (hd : a.deed? w.store = some d) : d.binds = false := by
  cases hb : d.binds with
  | false => rfl
  | true =>
    have hi' : (w.step policy (.act n)).Inv := inv_step hi _
    have hlatched := hi'.latched a.transfer
    rw [step_act policy ha] at hlatched
    have hempty := hlatched.deeds_of_none
      ((Attempt.turn_step policy w.store a).none_of_none hi.sound ht)
    rw [deeds_goOn_self, hd] at hempty
    simp [Option.filter, hb] at hempty

theorem Inv.drawn_act (policy : Policy) (hi : w.Inv) (ha : w.attempts[n]? = some a)
    (ht : w.store.transfers.get? a.transfer = some t)
    (hlt : (w.step policy (.act n)).store.balance k < w.store.balance k) :
    k = t.source ∧ ∃ v, w.store.wallets.get? k = some v := by
  rw [step_act policy ha] at hlt
  obtain ⟨⟨amount, hd⟩, hv⟩ := (Attempt.turn_step policy w.store a).of_balance_lt hi.sound hlt
  obtain ⟨r, ds, honce, hmem, hterms⟩ := hi.atMostOnce_act policy ha ht hd rfl
  have hsource : r.source = t.source := congrArg NewTransfer.source hterms
  exact ⟨(honce.debit_of hmem).1.trans hsource, hv⟩

theorem Inv.paid_act (policy : Policy) (hi : w.Inv) (ha : w.attempts[n]? = some a)
    (ht : w.store.transfers.get? a.transfer = some t)
    (hlt : w.store.balance k < (w.step policy (.act n)).store.balance k) :
    (k = t.receiver ∨ k = t.source) ∧ ∃ v, w.store.wallets.get? k = some v := by
  rw [step_act policy ha] at hlt
  obtain ⟨⟨amount, hd⟩, hv⟩ := (Attempt.turn_step policy w.store a).of_lt_balance hi.sound hlt
  refine ⟨?_, hv⟩
  rcases hd with hd | hd
  · obtain ⟨r, ds, honce, hmem, hterms⟩ := hi.atMostOnce_act policy ha ht hd rfl
    have hreceiver : r.receiver = t.receiver := congrArg NewTransfer.receiver hterms
    exact .inl ((honce.credit_of hmem).1.trans hreceiver)
  · obtain ⟨r, ds, honce, hmem, hterms⟩ := hi.atMostOnce_act policy ha ht hd rfl
    have hsource : r.source = t.source := congrArg NewTransfer.source hterms
    exact .inr ((honce.refund_of hmem).1.trans hsource)

theorem Inv.unmoved_act (policy : Policy) (hi : w.Inv) (ha : w.attempts[n]? = some a)
    (ht : w.store.transfers.get? a.transfer = none) (k : Nat) :
    (w.step policy (.act n)).store.balance k = w.store.balance k := by
  have hturn := Attempt.turn_step policy w.store a
  rcases Int.lt_trichotomy ((w.step policy (.act n)).store.balance k) (w.store.balance k) with
    hlt | heq | hlt
  · rw [step_act policy ha] at hlt
    obtain ⟨⟨amount, hd⟩, -⟩ := hturn.of_balance_lt hi.sound hlt
    cases hi.not_binds_act policy ha ht hd
  · exact heq
  · rw [step_act policy ha] at hlt
    obtain ⟨⟨amount, hd | hd⟩, -⟩ := hturn.of_lt_balance hi.sound hlt
    · cases hi.not_binds_act policy ha ht hd
    · cases hi.not_binds_act policy ha ht hd

end Acts

theorem sender_course (policy : Policy) (moves : List Move) (n : Nat) {sender : Nat}
    (ht : (ago (course policy moves) 0).store.transfers.get? id = some t)
    (hne : sender ≠ t.sender) :
    ∀ q, (ago (course policy moves) n).store.transfers.get? id = some q → sender ≠ q.sender := by
  intro q hq
  obtain ⟨t', ht', hterms⟩ := terms_course policy moves (Nat.zero_le n) hq
  cases ht.symm.trans ht'
  have hsame : t.sender = q.sender := congrArg NewTransfer.sender hterms
  rw [← hsame]
  exact hne

/-- **A transfer moves the sender's funds to the wallet that was found.** After any
moves from the empty service, every stored transfer was asked for by a request that
found its source with the sender as the owner and its receiver at the address given.
As long as they are there, the source belongs to the sender and the receiver is the
wallet that was found. A transaction of an attempt takes from the source alone and
gives to the receiver, or back to the source. A link by anybody else than the sender
is refused and changes nothing. -/
theorem parties_fixed (policy : Policy) (moves : List Move) :
    let ws := course policy moves
    let w := ago ws 0
    (∀ id t, w.store.transfers.get? id = some t →
      ∃ before r i j after payer payee,
        moves = before ++ .request r i j :: after ∧
        Asked policy before r i j payer payee id t ∧
        (∀ v, w.store.wallets.get? t.source = some v → v.owner = t.sender) ∧
        (∀ v, w.store.wallets.get? t.receiver = some v → ∀ l ≤ after.length + 1 + j,
          ∃ x, (ago ws l).store.wallets.get? t.receiver = some x ∧ x.owner = payee.owner) ∧
        (∀ n a k, w.attempts[n]? = some a → a.transfer = id →
          (w.step policy (.act n)).store.balance k < w.store.balance k →
          k = t.source ∧ ∃ v, w.store.wallets.get? k = some v ∧ v.owner = t.sender) ∧
        (∀ n a k, w.attempts[n]? = some a → a.transfer = id →
          w.store.balance k < (w.step policy (.act n)).store.balance k →
          (k = t.receiver ∨ k = t.source) ∧
            ∃ v, (ago (course policy before) 0).store.wallets.get? k = some v) ∧
        (∀ sender tx n, sender ≠ t.sender →
          (∃ fault, (ago ws n).store.attachTx id sender tx = .error fault) ∧
            next policy ws (.attach id sender tx n) = w)) ∧
    (∀ n a k, w.attempts[n]? = some a → w.store.transfers.get? a.transfer = none →
      (w.step policy (.act n)).store.balance k = w.store.balance k) := by
  intro ws w
  have hi : w.Inv := inv_course policy moves 0
  refine ⟨fun id t ht => ?_, fun n a k ha hnone => hi.unmoved_act policy ha hnone k⟩
  obtain ⟨before, r, i, j, after, payer, payee, rfl, hasked⟩ := asked policy moves id t ht
  have howner : ∀ v, w.store.wallets.get? t.source = some v → v.owner = t.sender := by
    intro v hv
    obtain ⟨x, hx, hsender⟩ := hasked.payer_stays hv (Nat.zero_le _)
    cases hv.symm.trans hx
    exact hsender
  refine ⟨before, r, i, j, after, payer, payee, rfl, hasked, howner,
    fun v hv l hl => hasked.payee_stays hv hl, fun n a k ha hat hlt => ?_,
    fun n a k ha hat hlt => ?_, fun sender tx n hne => ?_⟩
  · obtain ⟨hk, v, hv⟩ := hi.drawn_act policy ha (hat ▸ ht) hlt
    exact ⟨hk, v, hv, howner v (hk ▸ hv)⟩
  · obtain ⟨hk, v, hv⟩ := hi.paid_act policy ha (hat ▸ ht) hlt
    exact ⟨hk, hasked.there_before hk hv⟩
  · have hother := sender_course policy _ n ht hne
    refine ⟨Store.attachTx_of_other hother tx, ?_⟩
    obtain ⟨fault, hfault⟩ := Store.mayAttach_of_other hother tx
    replace hfault : (ago ws n).store.mayAttach id sender tx = .error fault := hfault
    unfold next
    simp only [Move.event?, hfault]
    rfl

/-- A transfer of 25 units to the wallet at `b`, which moves to `c` before the
transfer is settled; another user opens a wallet at `b` then. -/
def readdressed : List Move :=
  [.ledger (.openWallet { owner := 1, currency := "BTC", address := "a", isDefault := false }),
    .ledger (.openWallet { owner := 2, currency := "BTC", address := "b", isDefault := false }),
    .ledger (.credit 1 100),
    .request {
      source := 1, amount := 25, sender := 1, receiverAddress := "b", priceCurrency := "BTC"
      payCurrency := "BTC", comment := "", linkedTx := some firstTx } 0 0,
    .ledger (.changeWallet 2 { currency := none, address := some "c", isDefault := false }),
    .ledger (.openWallet { owner := 3, currency := "BTC", address := "b", isDefault := false }),
    .begin 1, .act 0, .answer 0 (.ok 6), .act 0, .act 0, .act 0]

/-- The funds reach the wallet that was at `b`, not the one that is. -/
theorem parties_fixed_readdressed :
    let w := ago (course .failFast readdressed) 0
    ∃ before r i j payer payee t, Asked .failFast before r i j payer payee 1 t ∧
      payee.id = 2 ∧ payee.address = "b" ∧ w.store.addresses.get? "b" = some 3 ∧
      w.store.balance 2 = 25 ∧ w.store.balance 3 = 0 := by
  intro w
  obtain ⟨before, r, i, j, after, payer, payee, -, hasked, -⟩ :=
    (parties_fixed .failFast readdressed).1 1 _ rfl
  exact ⟨before, r, i, j, payer, payee, _, hasked, hasked.number, hasked.address, rfl, rfl, rfl⟩

end World
end Clearing
