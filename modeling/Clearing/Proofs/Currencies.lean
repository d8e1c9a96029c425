import Clearing.Proofs.Service
import Mathlib.Algebra.BigOperators.Group.List.Basic

/-!
# What settlements do to the currencies

A transfer does not ask which currencies its two wallets hold. When it is
completed its amount goes from the total of the one currency to the total of
the other, unit for unit; so every total is kept if the two are the same, and
otherwise the two are not. An attempt that completes nothing keeps every
total.
-/

namespace Clearing

/-! ### Tables that differ row by row -/

namespace Table

variable {κ α : Type} [Ord κ] [Std.TransOrd κ] [Std.LawfulEqOrd κ]

omit [Std.TransOrd κ] in
theorem find_map (f : κ → α → α) (k : κ) (es : List (κ × α)) :
    find k (es.map fun e => (e.1, f e.1 e.2)) = (find k es).map (f k) := by
  induction es with
  | nil => rfl
  | cons e es ih =>
    simp only [List.map_cons, find]
    by_cases hk : compare k e.1 = .eq
    · rw [if_pos hk, if_pos hk, Std.LawfulEqOrd.eq_of_compare hk]
      rfl
    · rw [if_neg hk, if_neg hk, ih]

theorem entries_map {t t' : Table κ α} {f : κ → α → α}
    (h : ∀ k, t'.get? k = (t.get? k).map (f k)) :
    t'.entries = t.entries.map fun e => (e.1, f e.1 e.2) := by
  have hsame : t' = ⟨t.entries.map fun e => (e.1, f e.1 e.2), List.pairwise_map.mpr t.sorted⟩ := by
    refine ext_get? fun k => ?_
    rw [h k]
    exact (find_map f k t.entries).symm
  rw [hsame]

omit [Std.TransOrd κ] in
theorem sum_at [DecidableEq κ] (k : κ) (x : α → Int) {es : List (κ × α)}
    (h : es.Pairwise fun a b => compare a.1 b.1 = .lt) :
    (es.map fun e => if e.1 = k then x e.2 else 0).sum = (find k es).elim 0 x := by
  induction es with
  | nil => rfl
  | cons e es ih =>
    cases h with
    | cons hlt hes =>
      have hfind : find k (e :: es) = if compare k e.1 = .eq then some e.2 else find k es := rfl
      rw [List.map_cons, List.sum_cons, ih hes, hfind]
      by_cases hk : compare k e.1 = .eq
      · have hkey : k = e.1 := Std.LawfulEqOrd.eq_of_compare hk
        have hnone : find k es = none := by
          refine find_eq_none fun a ha hak => ?_
          have hl := hlt a ha
          rw [hak, hkey] at hl
          simp at hl
        rw [if_pos hk, if_pos hkey.symm, hnone]
        simp
      · have hne : e.1 ≠ k := fun hc => hk (by rw [hc]; exact Std.ReflOrd.compare_self)
        rw [if_neg hk, if_neg hne, Int.zero_add]

end Table

namespace Store

def fundsIn (s : Store) (currency : String) : Int :=
  s.wallets.total fun w => if w.currency = currency then w.balance else 0

def currency? (s : Store) (id : Nat) : Option String := (s.wallets.get? id).map Wallet.currency

theorem fundsIn_of_wallets {s s' : Store} (h : s'.wallets = s.wallets) (currency : String) :
    s'.fundsIn currency = s.fundsIn currency := by
  unfold fundsIn
  rw [h]

theorem sum_wallet (s : Store) (id : Nat) (amount : Int) (currency : String) :
    (s.wallets.entries.map fun e =>
      if e.1 = id then (if e.2.currency = currency then amount else 0) else 0).sum =
      if s.currency? id = some currency then amount else 0 := by
  rw [Table.sum_at id (fun w : Wallet => if w.currency = currency then amount else 0)
    s.wallets.sorted]
  show (s.wallets.get? id).elim 0 _ = _
  unfold currency?
  cases s.wallets.get? id with
  | none => rfl
  | some w => simp

/-- When the balances are shifted by a settlement the amount comes onto the
total of the receiver's currency and goes from the total of the source's. -/
theorem Shifted.fundsIn_gain {s s' : Store} {t : Transfer} (h : s.Shifted s' t.gain)
    (currency : String) :
    s'.fundsIn currency = s.fundsIn currency
      + (if s.currency? t.receiver = some currency then t.amount else 0)
      - if s.currency? t.source = some currency then t.amount else 0 := by
  have hentries := Table.entries_map
    (f := fun (k : Nat) (w : Wallet) => { w with balance := w.balance + t.gain k }) h.rows
  have hsummand : ∀ e : Nat × Wallet,
      (if e.2.currency = currency then e.2.balance + t.gain e.1 else 0) =
        (if e.2.currency = currency then e.2.balance else 0) +
          ((if e.1 = t.source then (if e.2.currency = currency then -t.amount else 0) else 0) +
            if e.1 = t.receiver then (if e.2.currency = currency then t.amount else 0) else 0) := by
    intro e
    unfold Transfer.gain
    by_cases hc : e.2.currency = currency
    · simp only [if_pos hc]
    · simp only [if_neg hc, ite_self, Int.add_zero]
  have hneg : (if s.currency? t.source = some currency then -t.amount else 0) =
      -if s.currency? t.source = some currency then t.amount else 0 := by
    split
    · rfl
    · rfl
  calc s'.fundsIn currency
      = (s.wallets.entries.map fun e =>
          if e.2.currency = currency then e.2.balance + t.gain e.1 else 0).sum := by
        unfold fundsIn
        rw [Table.total_eq, hentries, List.map_map]
        rfl
    _ = s.fundsIn currency + ((if s.currency? t.source = some currency then -t.amount else 0)
          + if s.currency? t.receiver = some currency then t.amount else 0) := by
        simp only [hsummand]
        rw [List.sum_map_add, List.sum_map_add, sum_wallet, sum_wallet]
        unfold fundsIn
        rw [Table.total_eq]
    _ = _ := by
        rw [hneg]
        omega

end Store

/-! ### Attempts that complete nothing -/

/-- How far an attempt on the transfer `id` has come that flips no latch to
move the amount: nothing is written to a wallet, and what it may report is not
completed. -/
inductive Attempt.Quiet (id : Nat) (s : Store) : Stage → Prop
  | opening : Quiet id s .opening
  | asking {tx} : Quiet id s (.asking tx)
  /-- It comes too late, or to no transfer at all. -/
  | claiming (h : ∀ r, s.transfers.get? id = some r → r.isProcessed = true) : Quiet id s .claiming
  | counting {limit} : Quiet id s (.counting limit)
  | closing : Quiet id s .closing
  | reporting {r} (hr : s.transfers.get? id = some r) (hfailed : r.status = .failed) :
      Quiet id s .reporting
  | done {result} (h : ∀ t, result = .ok (.settled t) → t.status ≠ .completed) :
      Quiet id s (.done result)

namespace Attempt

variable {policy : Policy} {s s' : Store} {id : Nat} {σ τ : Stage} {d : Option Deed}

theorem Quiet.whileShallow (policy : Policy) (id : Nat) (s : Store) :
    Quiet id s policy.whileShallow := by
  cases policy with
  | failFast => exact .closing
  | retry interval limit => exact .counting

theorem Quiet.turn (hq : Quiet id s σ) (hs : s.Sound) (h : Turn policy s id σ d τ s') :
    Quiet id s' τ ∧ s'.wallets = s.wallets := by
  cases h with
  | waits => exact ⟨.asking, rfl⟩
  | ended => exact ⟨hq, rfl⟩
  | missing | late => exact ⟨.done (by simp), rfl⟩
  | opened => exact ⟨.asking, rfl⟩
  | unlinked => exact ⟨.whileShallow policy id s, rfl⟩
  | counted hr hp hτ =>
    refine ⟨?_, rfl⟩
    rw [hτ]
    split
    · exact .closing
    · exact .done (by simp)
  | claimed hr hp =>
    cases hq with
    | claiming hlate =>
      rw [hlate _ hr] at hp
      cases hp
  | closed hr hp => exact ⟨.reporting (hs.get?_rewrite hr rfl) rfl, rfl⟩
  | reported hr =>
    cases hq with
    | reporting hrow hfailed =>
      rw [hr] at hrow
      cases hrow
      refine ⟨.done fun t ht => ?_, rfl⟩
      cases ht
      rw [hfailed]
      decide
  | debited | debitRefused | credited | creditRefused | refunded | refundRefused | finished =>
    cases hq

theorem Quiet.proceed (policy : Policy) (hs : s.Sound) {a : Attempt}
    (hq : Quiet a.transfer s a.stage) :
    (a.proceed policy s).2.1.wallets = s.wallets ∧
      ∀ t, (a.proceed policy s).1.stage = .done (.ok (.settled t)) → t.status ≠ .completed := by
  obtain ⟨⟨-, hq', hw⟩, -⟩ := steps_invariant policy a.transfer
    (P := fun s' σ => s'.Sound ∧ Quiet a.transfer s' σ ∧ s'.wallets = s.wallets)
    (fun h hturn => by
      obtain ⟨hs', hq', hw⟩ := h
      obtain ⟨hq'', hw'⟩ := hq'.turn hs' hturn
      exact ⟨hturn.sound hs', hq'', hw'.trans hw⟩)
    a.stage.remaining a s rfl ⟨hs, hq, rfl⟩
  refine ⟨hw, fun t ht => ?_⟩
  have hq' : Quiet a.transfer (a.proceed policy s).2.1 (a.proceed policy s).1.stage := hq'
  rw [ht] at hq'
  cases hq' with
  | done h => exact h t rfl

theorem Quiet.of_early {a : Attempt} (ha : a.stage.isEarly = true)
    (hclosed : a.stage = .claiming →
      ∀ r, s.transfers.get? a.transfer = some r → r.isProcessed = true) :
    Quiet a.transfer s a.stage := by
  cases hσ : a.stage with
  | opening => exact .opening
  | claiming => exact .claiming (hclosed hσ)
  | counting limit => exact .counting
  | closing => exact .closing
  | _ =>
    rw [hσ] at ha
    cases ha

theorem fundsIn_proceed (policy : Policy) (hs : s.Sound) (a : Attempt)
    (ha : a.stage.isEarly = true) :
    (∀ t, (a.proceed policy s).1.stage = .done (.ok (.settled t)) → t.status = .completed →
      s.Shifted (a.proceed policy s).2.1 t.gain) ∧
    ((∀ t, (a.proceed policy s).1.stage = .done (.ok (.settled t)) → t.status ≠ .completed) →
      (a.proceed policy s).2.1.wallets = s.wallets) := by
  by_cases hclaims : a.stage = .claiming ∧
      ∃ r, s.transfers.get? a.transfer = some r ∧ r.isProcessed = false
  · obtain ⟨hσ, r, hrow, hopen⟩ := hclaims
    -- it stands where an attempt stands that was told a final depth
    have hheard : ({ a with stage := .asking "" } : Attempt).heard policy (.ok finalDepth) = a := by
      obtain ⟨transfer, stage⟩ := a
      cases hσ
      rfl
    obtain ⟨⟨status, hend, -, hmoved⟩, -⟩ := settled_whole policy
      (a := { a with stage := .asking "" }) hs hrow hopen rfl (Int.le_refl finalDepth)
    rw [hheard] at hend hmoved
    refine ⟨fun t ht hcompleted => ?_, fun hnot => ?_⟩
    · rw [hend] at ht
      cases ht
      obtain ⟨-, hshift⟩ | ⟨hfailed, -⟩ := hmoved
      · exact hshift
      · rw [hfailed] at hcompleted
        cases hcompleted
    · obtain ⟨hstatus, -⟩ | ⟨-, hw⟩ := hmoved
      · exact absurd hstatus (hnot _ hend)
      · exact hw
  · have hquiet : Quiet a.transfer s a.stage := by
      refine .of_early ha fun hσ r hrow => ?_
      cases hp : r.isProcessed with
      | true => rfl
      | false => exact absurd ⟨hσ, r, hrow, hp⟩ hclaims
    obtain ⟨hw, hnot⟩ := hquiet.proceed policy hs
    exact ⟨fun t ht hcompleted => absurd hcompleted (hnot t ht), fun _ => hw⟩

end Attempt

namespace Desk

/-- **A completed transfer moves its amount between the currencies.** Take any
attempt of a desk from one wait to the next. If it completes the transfer, the
amount comes onto the total of the receiver's currency and goes from that of the
source's; if the two are the same, or if nothing is completed, the total of every
currency is kept. -/
theorem completion_moves_currencies (d : Desk) (hs : d.store.Sound) (ops : List Op)
    (policy : Policy) (a : Attempt) (ha : a.stage.isEarly = true) :
    let s := (d.runOps ops).store
    let e := a.proceed policy s
    (∀ t, e.1.stage = .done (.ok (.settled t)) → t.status = .completed → ∀ currency,
      e.2.1.fundsIn currency = s.fundsIn currency
        + (if s.currency? t.receiver = some currency then t.amount else 0)
        - if s.currency? t.source = some currency then t.amount else 0) ∧
    ((∀ t, e.1.stage = .done (.ok (.settled t)) → t.status = .completed →
        s.currency? t.source = s.currency? t.receiver) →
      ∀ currency, e.2.1.fundsIn currency = s.fundsIn currency) := by
  intro s e
  obtain ⟨hs', -⟩ := funds_runOps d hs ops
  obtain ⟨hshift, hkept⟩ := Attempt.fundsIn_proceed policy hs' a ha
  have hmoves : ∀ t, e.1.stage = .done (.ok (.settled t)) → t.status = .completed →
      ∀ currency, e.2.1.fundsIn currency = s.fundsIn currency
        + (if s.currency? t.receiver = some currency then t.amount else 0)
        - if s.currency? t.source = some currency then t.amount else 0 :=
    fun t ht hcompleted => (hshift t ht hcompleted).fundsIn_gain
  refine ⟨hmoves, fun hsame currency => ?_⟩
  by_cases hcompletes : ∃ t, e.1.stage = .done (.ok (.settled t)) ∧ t.status = .completed
  · obtain ⟨t, ht, hcompleted⟩ := hcompletes
    rw [hmoves t ht hcompleted currency, hsame t ht hcompleted]
    omega
  · refine Store.fundsIn_of_wallets (hkept fun t ht hcompleted => ?_) currency
    exact hcompletes ⟨t, ht, hcompleted⟩

/-- A wallet for bitcoin with 100 units, a wallet for euros, and a transfer of
25 units from the one to the other. -/
def crossing : List Op :=
  [.createWallet 1 "BTC" (some "a") false, .createWallet 2 "EUR" (some "b") false,
    .setBalance 1 100,
    .createTransfer {
      source := 1, amount := 25, sender := 1, receiverAddress := "b", priceCurrency := "BTC"
      payCurrency := "BTC", comment := "", linkedTx := some World.firstTx }]

/-- The totals are not always kept: what is paid in bitcoin arrives in euros. -/
theorem currencies_not_kept :
    ¬∀ (options : Options) (ops : List Op) (policy : Policy) (a : Attempt),
      a.stage.isEarly = true → ∀ currency,
        (a.proceed policy ((start options).runOps ops).store).2.1.fundsIn currency =
          ((start options).runOps ops).store.fundsIn currency := by
  intro h
  have heuros := h (ofStore .empty).options crossing .failFast
    ((Attempt.mk 1 (.asking World.firstTx)).heard .failFast (.ok 6)) rfl "EUR"
  revert heuros
  decide

theorem completion_moves_currencies_crossing :
    let s := ((ofStore .empty).runOps crossing).store
    let e := ((Attempt.mk 1 (.asking World.firstTx)).heard .failFast (.ok 6)).proceed .failFast s
    e.2.1.fundsIn "EUR" = s.fundsIn "EUR" + 25 ∧ e.2.1.fundsIn "BTC" = s.fundsIn "BTC" - 25 := by
  intro s e
  obtain ⟨hmoves, -⟩ := completion_moves_currencies (ofStore .empty) Store.sound_empty crossing
    .failFast ((Attempt.mk 1 (.asking World.firstTx)).heard .failFast (.ok 6)) rfl
  exact ⟨hmoves _ rfl rfl "EUR", hmoves _ rfl rfl "BTC"⟩

end Desk
end Clearing
