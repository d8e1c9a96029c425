import Clearing.Proofs.Interleaving

/-!
# A settlement in one go

From the node's answer on an attempt waits for nothing more, so nothing comes
between its transactions when it is taken on in one go. Then what it debits is
never lost: what it owes can always be given back, and at its end the amount is
moved whole or every wallet is as it was.
-/

namespace Clearing

open Attempt

/-! ### What an attempt owes -/

/-- What an attempt has taken and not passed on yet. -/
def Attempt.Stage.owed : Stage → Int
  | .crediting q | .refunding q => q.amount
  | _ => 0

/-- The store is sound, and an attempt in the stage could give back what it
owes. -/
structure Attempt.Solvent (s : Store) (σ : Stage) : Prop where
  sound : s.Sound
  repayable : ∀ q, σ = .crediting q ∨ σ = .refunding q →
    ∃ b s', Ledger.credit s q.source q.amount = .ok (b, s')

theorem Attempt.Solvent.of_early {s : Store} {σ : Stage} (hs : s.Sound) (hσ : σ.isEarly = true) :
    Solvent s σ := by
  refine ⟨hs, fun q hq => ?_⟩
  obtain rfl | rfl := hq
  · simp [Stage.isEarly] at hσ
  · simp [Stage.isEarly] at hσ

theorem Attempt.Stage.owed_of_early {σ : Stage} (hσ : σ.isEarly = true) : σ.owed = 0 := by
  cases σ <;> simp [isEarly, owed] at hσ ⊢

theorem Attempt.Stage.owed_of_rest {σ : Stage} (hσ : σ.remaining = 0) : σ.owed = 0 := by
  cases σ <;> simp [remaining, owed] at hσ ⊢

section Turns

variable {policy : Policy} {s s' : Store} {id : Nat} {σ τ : Stage} {d : Option Deed}

/-- What was debited can be credited to the same wallet again. -/
theorem Ledger.credit_of_debit {b amount : Int} {wallet : Nat} (hs : s.Sound)
    (h : Ledger.debit s wallet amount = .ok (b, s')) :
    ∃ b' s'', Ledger.credit s' wallet amount = .ok (b', s'') := by
  obtain ⟨w, hw, hpos, -, -, rfl⟩ := Ledger.debit_eq_ok.mp h
  have hid : w.id = wallet := hs.wallet_id hw
  have hmax := hs.balance_le hw
  refine ⟨_, _, Ledger.credit_eq_ok.mpr ⟨{ w with balance := w.balance - amount }, ?_, hpos, ?_,
    rfl, rfl⟩⟩
  · rw [Store.get?_putWallet, if_pos hid.symm]
  · show w.balance - amount + amount ≤ maxInt64
    omega

/-- With nothing in between, no refund is refused, and the funds and what is
owed stay the same together. -/
theorem Attempt.Turn.solvent (hsolv : Solvent s σ) (h : Turn policy s id σ d τ s') :
    d ≠ some .refundRefused ∧ Solvent s' τ ∧ s'.funds + τ.owed = s.funds + σ.owed := by
  have hs := hsolv.sound
  have hs' := h.sound hs
  have plain : ∀ {τ : Stage} {s' : Store}, s'.Sound → (∀ q, τ ≠ .crediting q) →
      (∀ q, τ ≠ .refunding q) → Solvent s' τ :=
    fun hsound hc hr => ⟨hsound, fun q hq => hq.elim (absurd · (hc q)) (absurd · (hr q))⟩
  cases h with
  | debited h =>
    have hfunds := Ledger.funds_debit hs h
    refine ⟨by simp, ⟨hs', fun q hq => ?_⟩, ?_⟩
    · simp only [Stage.crediting.injEq, reduceCtorEq, or_false] at hq
      subst hq
      exact Ledger.credit_of_debit hs h
    · simp only [Stage.owed]
      omega
  | credited h =>
    have hfunds := Ledger.funds_credit hs h
    refine ⟨by simp, plain hs' (by simp) (by simp), ?_⟩
    simp only [Stage.owed]
    omega
  | @creditRefused q fault h =>
    refine ⟨by simp, ⟨hs, fun p hp => ?_⟩, rfl⟩
    simp only [reduceCtorEq, Stage.refunding.injEq, false_or] at hp
    subst hp
    exact hsolv.repayable q (.inl rfl)
  | refunded h =>
    have hfunds := Ledger.funds_credit hs h
    refine ⟨by simp, plain hs' (by simp) (by simp), ?_⟩
    simp only [Stage.owed]
    omega
  | @refundRefused q fault h =>
    obtain ⟨b, s'', hok⟩ := hsolv.repayable q (.inr rfl)
    rw [h] at hok
    cases hok
  | missing hr hσ =>
    refine ⟨by simp, plain hs (by simp [Stage.broken]) (by simp [Stage.broken]), ?_⟩
    obtain hσ | rfl | ⟨status, rfl⟩ := hσ
    · rw [Stage.owed_of_early hσ]
      rfl
    · rfl
    · rfl
  | late hr hp hσ =>
    refine ⟨by simp, plain hs (by simp [Stage.late]) (by simp [Stage.late]), ?_⟩
    rw [Stage.owed_of_early hσ]
    rfl
  | unlinked =>
    cases policy with
    | failFast =>
      exact ⟨by simp, plain hs (by simp [Policy.whileShallow]) (by simp [Policy.whileShallow]), rfl⟩
    | retry interval limit =>
      exact ⟨by simp, plain hs (by simp [Policy.whileShallow]) (by simp [Policy.whileShallow]), rfl⟩
  | counted hr hp hτ =>
    rw [hτ]
    split
    · exact ⟨by simp, plain hs' (by simp) (by simp), rfl⟩
    · exact ⟨by simp, plain hs' (by simp) (by simp), rfl⟩
  | waits | ended | opened | claimed | closed | debitRefused | finished | reported =>
    exact ⟨by simp, plain hs' (by simp) (by simp), rfl⟩

theorem Attempt.steps_invariant (policy : Policy) (id : Nat) {P : Store → Stage → Prop}
    (hstep : ∀ {s s' : Store} {σ τ : Stage} {d : Option Deed}, P s σ →
      Turn policy s id σ d τ s' → P s' τ)
    (n : Nat) (a : Attempt) (s : Store) (ha : a.transfer = id) (h : P s a.stage) :
    P (a.steps policy n s).2.1 (a.steps policy n s).1.stage ∧
      (a.steps policy n s).1.transfer = id := by
  induction n generalizing a s with
  | zero => exact ⟨h, ha⟩
  | succ n ih =>
    have hturn := turn_step policy s a
    rw [ha] at hturn
    exact ih (a.step policy s).1 (a.step policy s).2.1 ha (hstep h hturn)

theorem Attempt.funds_proceed (policy : Policy) (hs : s.Sound) (a : Attempt)
    (ha : a.stage.isEarly = true) :
    (a.proceed policy s).2.1.Sound ∧ (a.proceed policy s).2.1.funds = s.funds := by
  have hstart : Solvent s a.stage ∧ s.funds + a.stage.owed = s.funds := by
    rw [Stage.owed_of_early ha]
    exact ⟨.of_early hs ha, Int.add_zero _⟩
  obtain ⟨⟨hsolv, hfunds⟩, -⟩ := steps_invariant policy a.transfer
    (P := fun s' σ => Solvent s' σ ∧ s'.funds + σ.owed = s.funds)
    (fun h hturn => by
      obtain ⟨-, hsolv, hfunds⟩ := hturn.solvent h.1
      exact ⟨hsolv, hfunds.trans h.2⟩) a.stage.remaining a s rfl hstart
  refine ⟨hsolv.sound, ?_⟩
  have howed := Stage.owed_of_rest (remaining_proceed policy s a)
  unfold proceed at howed ⊢
  omega

end Turns

/-! ### Balances that are shifted -/

/-- `s'` has the wallets of `s`, each with `g` more on it, and `g` asks for
nothing where there is no wallet. -/
structure Store.Shifted (s s' : Store) (g : Nat → Int) : Prop where
  rows : ∀ k, s'.wallets.get? k =
    (s.wallets.get? k).map fun w => { w with balance := w.balance + g k }
  absent : ∀ k, s.wallets.get? k = none → g k = 0

namespace Store.Shifted

variable {s s' s'' : Store} {g g' : Nat → Int}

theorem refl (s : Store) : s.Shifted s fun _ => 0 where
  rows k := by
    cases s.wallets.get? k with
    | none => rfl
    | some w => simp
  absent _ _ := rfl

theorem of_wallets (h : s.Shifted s' g) (hw : s''.wallets = s'.wallets) : s.Shifted s'' g :=
  ⟨by rw [hw]; exact h.rows, h.absent⟩

theorem congr (h : s.Shifted s' g) (hg : ∀ k, g' k = g k) : s.Shifted s' g' := by
  have hgg : g' = g := funext hg
  rw [hgg]
  exact h

theorem put (h : s.Shifted s' g) {w : Wallet} {id : Nat} (hw : s'.wallets.get? id = some w)
    (hid : w.id = id) (amount : Int) :
    s.Shifted (s'.putWallet { w with balance := w.balance + amount })
      fun k => g k + if k = id then amount else 0 where
  rows k := by
    rw [Store.get?_putWallet]
    by_cases hk : k = id
    · rw [if_pos (hk.trans hid.symm), if_pos hk]
      rw [← hk, h.rows k] at hw
      obtain ⟨v, hv, rfl⟩ := Option.map_eq_some_iff.mp hw
      rw [hv]
      simp [Int.add_assoc]
    · rw [if_neg fun h => hk (h.trans hid), if_neg hk, h.rows k, Int.add_zero]
  absent k hk := by
    have hne : k ≠ id := by
      rintro rfl
      rw [h.rows k, hk] at hw
      cases hw
    rw [if_neg hne, h.absent k hk]
    rfl

theorem credit (h : s.Shifted s' g) (hs : s'.Sound) {id : Nat} {amount b : Int}
    (hc : Ledger.credit s' id amount = .ok (b, s'')) :
    s.Shifted s'' fun k => g k + if k = id then amount else 0 := by
  obtain ⟨w, hw, -, -, -, rfl⟩ := Ledger.credit_eq_ok.mp hc
  exact h.put hw (hs.wallet_id hw) amount

theorem debit (h : s.Shifted s' g) (hs : s'.Sound) {id : Nat} {amount b : Int}
    (hd : Ledger.debit s' id amount = .ok (b, s'')) :
    s.Shifted s'' fun k => g k + if k = id then -amount else 0 := by
  obtain ⟨w, hw, -, -, -, rfl⟩ := Ledger.debit_eq_ok.mp hd
  exact h.put hw (hs.wallet_id hw) (-amount)

theorem wallets_eq (h : s.Shifted s' g) (hg : ∀ k, g k = 0) : s'.wallets = s.wallets := by
  refine Table.ext_get? fun k => ?_
  rw [h.rows k, hg k]
  cases s.wallets.get? k with
  | none => rfl
  | some w => simp

end Store.Shifted

/-! ### From the claim to the last status -/

/-- The amount of `r` was moved whole, or no wallet is other than before. -/
def Transfer.MovedOrNot (r : Transfer) (s s' : Store) (status : TransferStatus) : Prop :=
  status = .completed ∧ s.Shifted s' r.gain ∨ status = .failed ∧ s'.wallets = s.wallets

theorem Transfer.MovedOrNot.of_wallets {r : Transfer} {s s' s'' : Store} {status : TransferStatus}
    (h : r.MovedOrNot s s' status) (hw : s''.wallets = s'.wallets) : r.MovedOrNot s s'' status := by
  obtain ⟨hstatus, hshift⟩ | ⟨hstatus, hsame⟩ := h
  · exact .inl ⟨hstatus, hshift.of_wallets hw⟩
  · exact .inr ⟨hstatus, hw.trans hsame⟩

/-- Where an attempt stands that began to claim the transfer `r` in the store
`s`, with nothing in between: its stage and the store it works on. -/
inductive Attempt.Underway (s : Store) (id : Nat) (r : Transfer) : Stage → Store → Prop
  | claiming : Underway s id r .claiming s
  | debiting {s'} (hr : s'.transfers.get? id = some { r with isProcessed := true })
      (hw : s.Shifted s' fun _ => 0) :
      Underway s id r (.debiting { r with isProcessed := true }) s'
  | crediting {s'} (hr : s'.transfers.get? id = some { r with isProcessed := true })
      (hw : s.Shifted s' fun k => if k = r.source then -r.amount else 0) :
      Underway s id r (.crediting { r with isProcessed := true }) s'
  | refunding {s'} (hr : s'.transfers.get? id = some { r with isProcessed := true })
      (hw : s.Shifted s' fun k => if k = r.source then -r.amount else 0) :
      Underway s id r (.refunding { r with isProcessed := true }) s'
  | finishing {s' status} (hr : s'.transfers.get? id = some { r with isProcessed := true })
      (hw : r.MovedOrNot s s' status) : Underway s id r (.finishing status) s'
  | settled {s' status}
      (hr : s'.transfers.get? id = some { r with isProcessed := true, status })
      (hw : r.MovedOrNot s s' status) :
      Underway s id r (.done (.ok (.settled { r with isProcessed := true, status }))) s'

theorem Attempt.Underway.turn {policy : Policy} {s s₁ s₂ : Store} {id : Nat} {r : Transfer}
    {σ τ : Stage} {d : Option Deed} (hrow : s.transfers.get? id = some r)
    (hopen : r.isProcessed = false) (hs : s₁.Sound) (hd : d ≠ some .refundRefused)
    (hu : Underway s id r σ s₁) (h : Turn policy s₁ id σ d τ s₂) : Underway s id r τ s₂ := by
  cases hu with
  | claiming =>
    cases h with
    | missing hnone _ => simp [hrow] at hnone
    | late hq hp _ =>
      rw [hrow] at hq
      cases hq
      simp [hopen] at hp
    | claimed hq hp =>
      rw [hrow] at hq
      cases hq
      exact .debiting (hs.get?_rewrite hrow rfl) ((Store.Shifted.refl s).of_wallets rfl)
  | debiting hr hw =>
    cases h with
    | missing hnone _ => simp [hr] at hnone
    | late _ _ hσ => simp [Stage.isEarly] at hσ
    | debited h =>
      refine .crediting ?_ ((hw.debit hs h).congr fun k => (Int.zero_add _).symm)
      rw [Ledger.transfers_debit h, hr]
    | debitRefused h => exact .finishing hr (.inr ⟨rfl, hw.wallets_eq fun _ => rfl⟩)
  | crediting hr hw =>
    cases h with
    | missing hnone _ => simp [hr] at hnone
    | late _ _ hσ => simp [Stage.isEarly] at hσ
    | credited h =>
      refine .finishing ?_ (.inl ⟨rfl, (hw.credit hs h).congr fun _ => rfl⟩)
      rw [Ledger.transfers_credit h, hr]
    | creditRefused h => exact .refunding hr hw
  | refunding hr hw =>
    cases h with
    | missing hnone _ => simp [hr] at hnone
    | late _ _ hσ => simp [Stage.isEarly] at hσ
    | refunded h =>
      refine .finishing ?_ (.inr ⟨rfl, (hw.credit hs h).wallets_eq fun k => ?_⟩)
      · rw [Ledger.transfers_credit h, hr]
      · split
        · exact Int.add_left_neg _
        · rfl
    | refundRefused h => exact absurd rfl hd
  | finishing hr hw =>
    cases h with
    | missing hnone _ => simp [hr] at hnone
    | late _ _ hσ => simp [Stage.isEarly] at hσ
    | finished hq =>
      rw [hr] at hq
      cases hq
      exact .settled (hs.get?_rewrite hr rfl) (hw.of_wallets rfl)
  | settled hr hw =>
    cases h with
    | missing hnone _ => simp [hr] at hnone
    | late _ _ hσ => simp [Stage.isEarly] at hσ
    | ended => exact .settled hr hw

/-- An attempt on an unprocessed transfer that is told a final depth ends with
the transfer settled: completed with its amount moved whole, or failed with
every wallet as it was. No refund is refused on the way. -/
theorem Attempt.settled_whole (policy : Policy) {s : Store} {a : Attempt} {tx : String}
    {depth : Int} {r : Transfer} (hs : s.Sound) (hrow : s.transfers.get? a.transfer = some r)
    (hopen : r.isProcessed = false) (hasks : a.stage = .asking tx) (hfinal : finalDepth ≤ depth) :
    (∃ status, ((a.heard policy (.ok depth)).proceed policy s).1.stage =
        .done (.ok (.settled { r with isProcessed := true, status })) ∧
      ((a.heard policy (.ok depth)).proceed policy s).2.1.transfers.get? a.transfer =
        some { r with isProcessed := true, status } ∧
      r.MovedOrNot s ((a.heard policy (.ok depth)).proceed policy s).2.1 status) ∧
    ∀ n, ((a.heard policy (.ok depth)).steps policy n s).1.deed?
      ((a.heard policy (.ok depth)).steps policy n s).2.1 ≠ some .refundRefused := by
  have hheard : a.heard policy (.ok depth) = { a with stage := .claiming } := by
    unfold heard Policy.decide
    simp only [hasks, if_pos hfinal]
  rw [hheard]
  generalize hb : ({ a with stage := .claiming } : Attempt) = b
  have hbstage : b.stage = .claiming := by rw [← hb]
  have hbid : b.transfer = a.transfer := by rw [← hb]
  have hstart : Solvent s b.stage ∧ Underway s a.transfer r b.stage s := by
    rw [hbstage]
    exact ⟨.of_early hs rfl, .claiming⟩
  -- as long as the refund is not refused the attempt stays underway, and it is not refused
  have hrun : ∀ n, (Solvent (b.steps policy n s).2.1 (b.steps policy n s).1.stage ∧
      Underway s a.transfer r (b.steps policy n s).1.stage (b.steps policy n s).2.1) ∧
      (b.steps policy n s).1.transfer = a.transfer := by
    intro n
    refine steps_invariant policy a.transfer
      (P := fun s' σ => Solvent s' σ ∧ Underway s a.transfer r σ s') (fun h hturn => ?_)
      n b s hbid hstart
    obtain ⟨hrefund, hsolv, -⟩ := hturn.solvent h.1
    exact ⟨hsolv, h.2.turn hrow hopen h.1.sound hrefund hturn⟩
  refine ⟨?_, fun n => ?_⟩
  · have hrest := remaining_proceed policy s b
    obtain ⟨⟨-, hu⟩, -⟩ := hrun b.stage.remaining
    unfold proceed at hrest ⊢
    generalize (b.steps policy b.stage.remaining s).1.stage = σ at hu hrest ⊢
    generalize (b.steps policy b.stage.remaining s).2.1 = s' at hu ⊢
    cases hu with
    | settled hr hw => exact ⟨_, rfl, hr, hw⟩
    | claiming | debiting | crediting | refunding | finishing => simp [Stage.remaining] at hrest
  · obtain ⟨⟨hsolv, -⟩, -⟩ := hrun n
    exact ((turn_step policy _ _).solvent hsolv).1

end Clearing
