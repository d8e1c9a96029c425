import Clearing.Proofs.Addresses
import Clearing.Proofs.Service
import Mathlib.Data.List.Nodup

/-!
# Calls on the ledger side by side

Most calls on the ledger are one transaction. To make a wallet the default and
to close one take two: the first reads whether the call may go on, the second
writes, and transactions of other calls may come between. If what was read
still holds at the write, each call does at its last transaction all that it
would do alone. If not, a wallet that was made a default after it was looked at
is closed all the same.
-/

namespace Clearing

namespace Ledger

inductive Reply
  | wallet (w : Wallet)
  | balance (balance : Int)
  | done
deriving DecidableEq

def openAt (s : Store) (owner : Nat) (currency address : String) (isDefault : Bool) :
    Except LedgerFault (Wallet × Store) := do
  let code ← currencyCode currency
  openWallet s { owner, currency := code, address, isDefault }

/-- With an address that is not blank the node is not asked for one, and opening a
wallet is one transaction. -/
theorem createWallet_of_filled (d : Desk) {owner : Nat} {currency : String}
    {text : Option String} {address : String} {isDefault : Bool} (h : filled text = some address) :
    d.createWallet owner currency text isDefault =
      d.transact (openAt · owner currency address isDefault) := by
  unfold Desk.createWallet addressSource Desk.transact openAt
  rw [h]
  cases currencyCode currency <;> rfl

inductive Call
  | changeWallet (wallet : Nat) (change : WalletChange)
  | setDefault (user wallet : Nat) (currency : String)
  | closeWallet (wallet : Nat)
  | credit (wallet : Nat) (amount : Int)
  | debit (wallet : Nat) (amount : Int)
  | setBalance (wallet : Nat) (balance : Int64)
  | openAt (owner : Nat) (currency address : String) (isDefault : Bool)

namespace Call

def reply {α : Type} (f : α → Reply) (r : Except LedgerFault (α × Store)) :
    Except LedgerFault (Reply × Store) :=
  r.map fun p => (f p.1, p.2)

/-- The call, with nothing between its transactions. -/
def alone (s : Store) : Call → Except LedgerFault (Reply × Store)
  | .changeWallet id change => reply .wallet (Ledger.changeWallet s id change)
  | .setDefault user id currency => reply .wallet (Ledger.setDefault s user id currency)
  | .closeWallet id => reply (fun _ => .done) (Ledger.closeWallet s id)
  | .credit id amount => reply .balance (Ledger.credit s id amount)
  | .debit id amount => reply .balance (Ledger.debit s id amount)
  | .setBalance id balance => reply .wallet (Ledger.setBalance s id balance.toInt)
  | .openAt owner currency address isDefault =>
    reply .wallet (Ledger.openAt s owner currency address isDefault)

/-- What the transaction finds that only reads, if the call begins with one. -/
def finding (s : Store) : Call → Option (Except LedgerFault Unit)
  | .setDefault user id currency => some (mayBeDefault s user id currency)
  | .closeWallet id => some (mayClose s id)
  | _ => none

def write (s : Store) : Call → Except LedgerFault (Reply × Store)
  | .setDefault user id _ => reply .wallet ((s.makeDefault user id).mapError .ofStore)
  | .closeWallet id => reply (fun _ => .done) ((s.closeWallet id).mapError .ofStore)
  | c => c.alone s

/-- What was read of its wallet still holds, if the wallet is still there: a
wallet to be made a default is of the currency, one to be closed is no
default. -/
def Stands (s : Store) : Call → Prop
  | .setDefault _ id currency => ∀ w code, s.wallets.get? id = some w →
      currencyCode currency = .ok code → Text.upper w.currency = Text.upper code
  | .closeWallet id => ∀ w, s.wallets.get? id = some w → w.isDefault = false
  | _ => True

variable {s t : Store} {c : Call}

theorem alone_eq (s : Store) (c : Call) :
    c.alone s =
      match c.finding s with
      | some (.error fault) => .error fault
      | _ => c.write s := by
  cases c with
  | setDefault user id currency =>
    simp only [alone, finding, Ledger.setDefault]
    cases mayBeDefault s user id currency <;> rfl
  | closeWallet id =>
    simp only [alone, finding, Ledger.closeWallet]
    cases mayClose s id <;> rfl
  | changeWallet | credit | debit | setBalance | openAt => rfl

/-- A call that could go on once, and finds the same still, writes what it would
write alone. If its wallet is gone, or is another user's, reading and writing
fail alike. -/
theorem alone_eq_write (hpassed : c.finding t = some (.ok ())) (hstands : c.Stands s) :
    c.alone s = c.write s := by
  cases c with
  | setDefault user id currency =>
    have hcode : ∃ code, currencyCode currency = .ok code := by
      cases hcode : currencyCode currency with
      | ok code => exact ⟨code, rfl⟩
      | error fault => simp [finding, mayBeDefault, hcode, bind, Except.bind] at hpassed
    obtain ⟨code, hcode⟩ := hcode
    rw [alone_eq]
    simp only [finding, write, mayBeDefault, hcode, Ledger.wallet, Store.wallet, Store.makeDefault,
      bind, Except.bind]
    cases hrow : s.wallets.get? id with
    | none => rfl
    | some w =>
      have hcurrency : Text.upper w.currency = Text.upper code := hstands w code hrow hcode
      simp only [Except.mapError, hcurrency]
      by_cases howner : w.owner = user
      · simp [howner]
      · simp [howner, reply, Except.map, LedgerFault.ofStore]
  | closeWallet id =>
    rw [alone_eq]
    simp only [finding, write, mayClose, Ledger.wallet, Store.wallet, Store.closeWallet,
      bind, Except.bind]
    cases hrow : s.wallets.get? id with
    | none => rfl
    | some w =>
      have hflag : w.isDefault = false := hstands w hrow
      simp [Except.mapError, hflag]
  | changeWallet | credit | debit | setBalance | openAt => cases hpassed

/-! ### Transaction by transaction -/

inductive Stage
  | fresh
  | checked
  | ended (r : Except LedgerFault Reply)

def Stage.result? : Stage → Option (Except LedgerFault Reply)
  | .ended r => some r
  | _ => none

def answer (r : Except LedgerFault (Reply × Store)) : Except LedgerFault Reply := r.map Prod.fst

def finish (s : Store) (c : Call) : Stage × Store :=
  (.ended (answer (c.write s)), s.after (c.write s))

def next (s : Store) (c : Call) : Stage → Stage × Store
  | .fresh =>
    match c.finding s with
    | none => c.finish s
    | some (.ok _) => (.checked, s)
    | some (.error fault) => (.ended (.error fault), s)
  | .checked => c.finish s
  | .ended r => (.ended r, s)

theorem next_writes (s : Store) (c : Call) (stage : Stage) :
    ((c.next s stage).2 = s ∨ (c.next s stage).2 = s.after (c.write s)) ∧
      ((c.next s stage).1 = .checked →
        (c.next s stage).2 = s ∧ c.finding s = some (.ok ())) := by
  cases stage with
  | fresh =>
    unfold next
    cases hfind : c.finding s with
    | none => exact ⟨.inr rfl, fun h => by cases h⟩
    | some r =>
      cases r with
      | ok _ => exact ⟨.inl rfl, fun _ => ⟨rfl, rfl⟩⟩
      | error fault => exact ⟨.inl rfl, fun h => by cases h⟩
  | checked => exact ⟨.inr rfl, fun h => by cases h⟩
  | ended r => exact ⟨.inl rfl, fun h => by cases h⟩

theorem next_cases {stage : Stage} (hopen : stage.result? = none)
    (hpassed : stage = .checked → ∃ t, c.finding t = some (.ok ()))
    (hstands : stage = .checked → c.Stands s) :
    c.next s stage = (.checked, s) ∧ c.finding s = some (.ok ()) ∨
      c.next s stage = (.ended (answer (c.alone s)), s.after (c.alone s)) := by
  cases stage with
  | fresh =>
    rw [alone_eq]
    unfold next
    cases hfind : c.finding s with
    | none => exact .inr rfl
    | some r =>
      cases r with
      | ok _ => exact .inl ⟨rfl, rfl⟩
      | error fault => exact .inr rfl
  | checked =>
    obtain ⟨t, ht⟩ := hpassed rfl
    rw [alone_eq_write ht (hstands rfl)]
    exact .inr rfl
  | ended r => cases hopen

theorem of_next_closeWallet {id : Nat} {stage : Stage} (hopen : stage.result? = none)
    (hdone : (next s (.closeWallet id) stage).1.result? = some (.ok .done)) :
    stage = .checked ∧ ∃ w, s.wallets.get? id = some w := by
  cases stage with
  | fresh =>
    simp only [next, finding] at hdone
    cases hfind : mayClose s id with
    | error fault => simp [hfind, Stage.result?] at hdone
    | ok _ => simp [hfind, Stage.result?] at hdone
  | checked =>
    refine ⟨rfl, ?_⟩
    cases hrow : s.wallets.get? id with
    | some w => exact ⟨w, rfl⟩
    | none =>
      simp [next, finish, write, Store.closeWallet, Store.wallet, hrow, reply, answer, Except.map,
        Except.mapError, bind, Except.bind, Stage.result?] at hdone
  | ended r => cases hopen

end Call

/-- Calls on one store, each as far as it has come. -/
structure Session where
  store : Store
  calls : List (Call × Call.Stage)

namespace Session

def begin (s : Store) (calls : List Call) : Session := ⟨s, calls.map (·, .fresh)⟩

theorem fresh_of_begin {s : Store} {cs : List Call} {i : Nat} {c : Call} {stage : Call.Stage}
    (h : (begin s cs).calls[i]? = some (c, stage)) : stage = .fresh := by
  simp only [begin, List.getElem?_map, Option.map_eq_some_iff, Prod.mk.injEq] at h
  obtain ⟨-, -, -, rfl⟩ := h
  rfl

def result? (x : Session) (i : Nat) : Option (Except LedgerFault Reply) :=
  x.calls[i]?.bind (·.2.result?)

theorem result?_of_getElem? {x : Session} {i : Nat} {c : Call} {stage : Call.Stage}
    (hi : x.calls[i]? = some (c, stage)) : x.result? i = stage.result? := by
  unfold result?
  rw [hi, Option.bind_some]

def put (x : Session) (i : Nat) (c : Call) (r : Call.Stage × Store) : Session where
  store := r.2
  calls := x.calls.set i (c, r.1)

theorem result?_put {x : Session} {i : Nat} {c : Call} {stage : Call.Stage}
    (hi : x.calls[i]? = some (c, stage)) (r : Call.Stage × Store) (j : Nat) :
    (x.put i c r).result? j = if j = i then r.1.result? else x.result? j := by
  unfold result? put
  by_cases hj : j = i
  · obtain ⟨hlt, -⟩ := List.getElem?_eq_some_iff.mp hi
    rw [if_pos hj, hj, List.getElem?_set_self hlt, Option.bind_some]
  · rw [if_neg hj, List.getElem?_set_ne (Ne.symm hj)]

theorem map_put {x : Session} {i : Nat} {c : Call} {stage : Call.Stage}
    (hi : x.calls[i]? = some (c, stage)) (r : Call.Stage × Store) :
    (x.put i c r).calls.map Prod.fst = x.calls.map Prod.fst := by
  have hplace : (x.calls.map Prod.fst)[i]? = some c := by
    rw [List.getElem?_map, hi]
    rfl
  obtain ⟨hlt, hget⟩ := List.getElem?_eq_some_iff.mp hplace
  unfold put
  rw [List.map_set, ← hget, List.set_getElem_self]

theorem getElem?_put {x : Session} {i j : Nat} {b c : Call} {stage σ : Call.Stage}
    (hi : x.calls[i]? = some (c, stage)) {r : Call.Stage × Store}
    (hj : (x.put i c r).calls[j]? = some (b, σ)) :
    b = c ∧ r.1 = σ ∨ i ≠ j ∧ x.calls[j]? = some (b, σ) := by
  unfold put at hj
  by_cases hij : i = j
  · subst hij
    obtain ⟨hlt, -⟩ := List.getElem?_eq_some_iff.mp hi
    rw [List.getElem?_set_self hlt, Option.some.injEq, Prod.mk.injEq] at hj
    exact .inl ⟨hj.1.symm, hj.2⟩
  · rw [List.getElem?_set_ne hij] at hj
    exact .inr ⟨hij, hj⟩

def step (x : Session) (i : Nat) : Session :=
  match x.calls[i]? with
  | none => x
  | some (c, stage) => x.put i c (c.next x.store stage)

/-- The transactions of the calls in the order in which they come. -/
def run (x : Session) (schedule : List Nat) : Session := schedule.foldl step x

/-- When the turn of the `i`th call comes and it has read before, what it read
still holds. -/
def Timely (x : Session) (i : Nat) : Prop :=
  ∀ c, x.calls[i]? = some (c, .checked) → c.Stands x.store

def AllTimely (x : Session) : List Nat → Prop
  | [] => True
  | i :: rest => x.Timely i ∧ (x.step i).AllTimely rest

namespace AllTimely

variable {x : Session} {before after : List Nat} {i : Nat}

theorem of_append (h : x.AllTimely (before ++ after)) : x.AllTimely before := by
  induction before generalizing x with
  | nil => trivial
  | cons i before ih => exact ⟨h.1, ih h.2⟩

theorem timely (h : x.AllTimely (before ++ i :: after)) : (x.run before).Timely i := by
  induction before generalizing x with
  | nil => exact h.1
  | cons j before ih => exact ih h.2

end AllTimely

end Session

/-- Calls one after the other: what they answer, and the store they leave. -/
def serially (s : Store) : List Call → List (Except LedgerFault Reply) × Store
  | [] => ([], s)
  | c :: cs =>
    let q := serially (s.after (c.alone s)) cs
    (Call.answer (c.alone s) :: q.1, q.2)

theorem serially_append (s : Store) (cs : List Call) (c : Call) :
    serially s (cs ++ [c]) =
      ((serially s cs).1 ++ [Call.answer (c.alone (serially s cs).2)],
        (serially s cs).2.after (c.alone (serially s cs).2)) := by
  induction cs generalizing s with
  | nil => rfl
  | cons b cs ih => simp only [List.cons_append, serially, ih]

/-- The calls that have ended, in an order in which they could have come one
after the other. -/
structure Serialized (s : Store) (cs : List Call) (x : Session) (order : List Nat) : Prop where
  calls : x.calls.map Prod.fst = cs
  unique : order.Nodup
  ended : ∀ i, i ∈ order ↔ (x.result? i).isSome
  same : serially s (order.filterMap (cs[·]?)) = (order.filterMap x.result?, x.store)
  passed : ∀ {i : Nat} {c : Call}, x.calls[i]? = some (c, .checked) →
    ∃ t, c.finding t = some (.ok ())

namespace Serialized

variable {s : Store} {cs : List Call} {x : Session} {order : List Nat}

theorem begin (s : Store) (cs : List Call) : Serialized s cs (.begin s cs) [] := by
  refine ⟨by simp [Session.begin, Function.comp_def], .nil, fun i => ?_, rfl, fun h => ?_⟩
  · unfold Session.result?
    cases hi : (Session.begin s cs).calls[i]? with
    | none => simp
    | some p =>
      obtain ⟨c, stage⟩ := p
      rw [Session.fresh_of_begin hi]
      simp [Call.Stage.result?]
  · cases Session.fresh_of_begin h

theorem getElem?_calls (h : Serialized s cs x order) {i : Nat} {c : Call} {stage : Call.Stage}
    (hi : x.calls[i]? = some (c, stage)) : cs[i]? = some c := by
  rw [← h.calls, List.getElem?_map, hi]
  rfl

theorem passed_put (h : Serialized s cs x order) {i : Nat} {c : Call} {stage : Call.Stage}
    (hi : x.calls[i]? = some (c, stage)) {r : Call.Stage × Store}
    (hr : r.1 = .checked → ∃ t, c.finding t = some (.ok ())) {j : Nat} {b : Call}
    (hj : (x.put i c r).calls[j]? = some (b, .checked)) : ∃ t, b.finding t = some (.ok ()) := by
  obtain ⟨rfl, hchecked⟩ | ⟨-, hold⟩ := Session.getElem?_put hi hj
  · exact hr hchecked
  · exact h.passed hold

theorem checked (h : Serialized s cs x order) {i : Nat} {c : Call} {stage : Call.Stage}
    (hi : x.calls[i]? = some (c, stage)) (hopen : stage.result? = none)
    (hfind : c.finding x.store = some (.ok ())) :
    Serialized s cs (x.put i c (.checked, x.store)) order := by
  have hresult : (x.put i c (.checked, x.store)).result? = x.result? := by
    funext j
    rw [Session.result?_put hi]
    split
    · rename_i hj
      rw [hj, Session.result?_of_getElem? hi, hopen]
      rfl
    · rfl
  refine ⟨(Session.map_put hi _).trans h.calls, h.unique, fun j => ?_, ?_,
    h.passed_put hi fun _ => ⟨_, hfind⟩⟩
  · rw [hresult]
    exact h.ended j
  · rw [hresult]
    exact h.same

/-- A call that ends as it would alone comes last in the order. -/
theorem ended_last (h : Serialized s cs x order) {i : Nat} {c : Call} {stage : Call.Stage}
    (hi : x.calls[i]? = some (c, stage)) (hopen : stage.result? = none) :
    Serialized s cs
      (x.put i c (.ended (Call.answer (c.alone x.store)), x.store.after (c.alone x.store)))
      (order ++ [i]) := by
  have hplace : cs[i]? = some c := h.getElem?_calls hi
  have hnew : i ∉ order := by
    rw [h.ended, Session.result?_of_getElem? hi, hopen]
    exact Bool.false_ne_true
  have hresult := Session.result?_put hi
    (.ended (Call.answer (c.alone x.store)), x.store.after (c.alone x.store))
  refine ⟨(Session.map_put hi _).trans h.calls, ?_, fun j => ?_, ?_,
    h.passed_put hi fun hc => by cases hc⟩
  · exact List.nodup_append.mpr ⟨h.unique, List.nodup_singleton i, fun j hj k hk hjk =>
      hnew (List.mem_singleton.mp hk ▸ hjk ▸ hj)⟩
  · rw [hresult, List.mem_append, List.mem_singleton, h.ended]
    split
    · rename_i hj
      exact iff_of_true (.inr hj) rfl
    · rename_i hj
      exact or_iff_left hj
  · -- The answers so far stay as they were, and the new one comes last.
    have hbefore : ∀ j ∈ order, (x.put i c (.ended (Call.answer (c.alone x.store)),
        x.store.after (c.alone x.store))).result? j = x.result? j := by
      intro j hj
      rw [hresult, if_neg]
      rintro rfl
      exact hnew hj
    have hself : (x.put i c (.ended (Call.answer (c.alone x.store)),
        x.store.after (c.alone x.store))).result? i = some (Call.answer (c.alone x.store)) := by
      rw [hresult, if_pos rfl]
      rfl
    rw [List.filterMap_append, List.filterMap_append, List.filterMap_congr hbefore,
      List.filterMap_cons_some hplace, List.filterMap_cons_some hself]
    simp only [List.filterMap_nil]
    rw [serially_append, h.same]
    rfl

/-- At a turn a call reads and may go on, or it ends, which it does once. -/
theorem step (h : Serialized s cs x order) {i : Nat} (ht : x.Timely i) :
    ∃ order', Serialized s cs (x.step i) order' := by
  unfold Session.step
  cases hi : x.calls[i]? with
  | none => exact ⟨order, h⟩
  | some p =>
    obtain ⟨c, stage⟩ := p
    simp only
    cases hopen : stage.result? with
    | some r =>
      obtain ⟨hlt, hget⟩ := List.getElem?_eq_some_iff.mp hi
      have hstage : c.next x.store stage = (stage, x.store) := by
        cases stage with
        | ended r => rfl
        | fresh | checked => cases hopen
      have hsame : x.put i c (stage, x.store) = x := by
        unfold Session.put
        simp only [← hget, List.set_getElem_self]
      rw [hstage, hsame]
      exact ⟨order, h⟩
    | none =>
      obtain ⟨hnext, hfind⟩ | hnext := Call.next_cases (s := x.store) hopen
        (fun hc => h.passed (hc ▸ hi)) (fun hc => ht c (hc ▸ hi))
      · rw [hnext]
        exact ⟨order, h.checked hi hopen hfind⟩
      · rw [hnext]
        exact ⟨_, h.ended_last hi hopen⟩

theorem run (h : Serialized s cs x order) {schedule : List Nat} (ht : x.AllTimely schedule) :
    ∃ order', Serialized s cs (x.run schedule) order' := by
  induction schedule generalizing x order with
  | nil => exact ⟨order, h⟩
  | cons i rest ih =>
    obtain ⟨order', h'⟩ := h.step ht.1
    exact ih h' ht.2

theorem perm (h : Serialized s cs x order) :
    order.Perm ((List.range cs.length).filter fun i => (x.result? i).isSome) := by
  have hlength : x.calls.length = cs.length := by rw [← h.calls, List.length_map]
  have hin : ∀ i, (x.result? i).isSome = true → i < cs.length := by
    intro i hi
    rw [← hlength]
    by_contra hout
    unfold Session.result? at hi
    rw [List.getElem?_eq_none (Nat.not_lt.mp hout)] at hi
    cases hi
  refine (List.perm_ext_iff_of_nodup h.unique (List.nodup_range.filter _)).mpr fun i => ?_
  rw [List.mem_filter, List.mem_range]
  exact (h.ended i).trans ⟨fun hi => ⟨hin i hi, hi⟩, And.right⟩

theorem closed (h : Serialized s cs x order) {i id : Nat} (hi : cs[i]? = some (.closeWallet id))
    (ht : x.Timely i) (hopen : x.result? i = none)
    (hdone : (x.step i).result? i = some (.ok .done)) :
    ∃ w, x.store.wallets.get? id = some w ∧ w.isDefault = false := by
  rw [← h.calls, List.getElem?_map, Option.map_eq_some_iff] at hi
  obtain ⟨⟨c, stage⟩, hplace, rfl⟩ := hi
  unfold Session.step at hdone
  simp only [hplace] at hdone
  rw [Session.result?_put hplace, if_pos rfl] at hdone
  rw [Session.result?_of_getElem? hplace] at hopen
  obtain ⟨rfl, w, hw⟩ := Call.of_next_closeWallet hopen hdone
  exact ⟨w, hw, ht _ hplace w hw⟩

end Serialized

end Ledger

/-! ### What calls do to the wallets of others -/

namespace Store.WalletCall

def Flags (k : Nat) : WalletCall → Prop
  | .makeDefault _ id => k = id
  | .changeWallet id change => k = id ∧ change.isDefault = true
  | _ => False

def Exchanges (k : Nat) : WalletCall → Prop
  | .changeWallet id change => k = id ∧ change.currency.isSome = true
  | _ => False

/-- In the store `s'` a wallet under a number that `s` has given out is one of
`s`, and has its flag and its currency from there or from the call. -/
def Traces (s : Store) (call : WalletCall) (s' : Store) : Prop :=
  ∀ (k : Nat) (u : Wallet), k ≤ s.lastWallet → s'.wallets.get? k = some u →
    ∃ v, s.wallets.get? k = some v ∧ (u.isDefault = true → v.isDefault = true ∨ call.Flags k) ∧
      (u.currency = v.currency ∨ call.Exchanges k)

variable {s t : Store} {id k : Nat} {u w : Wallet}

theorem row_seat (hid : ∀ {k v}, t.wallets.get? k = some v → v.id = k) (hw : w.id = id)
    (hu : (t.seat id w).wallets.get? k = some u) :
    k = id ∧ u = w ∨ ∃ v, t.wallets.get? k = some v ∧
      (u.isDefault = true → v.isDefault = true) ∧ u.currency = v.currency := by
  rw [get?_seat t id hid hw] at hu
  split at hu
  · rename_i hk
    exact .inl ⟨hk, (Option.some.inj hu).symm⟩
  · obtain ⟨v, hv, rfl⟩ := Option.map_eq_some_iff.mp hu
    exact .inr ⟨v, hv, fun hflag => (Bool.and_eq_true_iff.mp hflag).1, rfl⟩

theorem traces_run (h : s.Agrees) (call : WalletCall) : Traces s call (call.run s) := by
  have hsame : Traces s call s := fun _ u _ hu => ⟨u, hu, .inl, .inl rfl⟩
  have hkept : ∀ {k : Nat} {u : Wallet}, (∃ v, s.wallets.get? k = some v ∧
      (u.isDefault = true → v.isDefault = true) ∧ u.currency = v.currency) →
      ∃ v, s.wallets.get? k = some v ∧ (u.isDefault = true → v.isDefault = true ∨ call.Flags k) ∧
        (u.currency = v.currency ∨ call.Exchanges k) :=
    fun ⟨v, hv, hflag, hcurrency⟩ => ⟨v, hv, fun hu => .inl (hflag hu), .inl hcurrency⟩
  cases call with
  | openWallet new =>
    refine after_of (P := Traces s (.openWallet new)) hsame fun {w s'} hok k u hk hu => ?_
    obtain ⟨-, hw, rfl⟩ := openWallet_eq_ok.mp hok
    have hnew : w.id = s.lastWallet + 1 := by rw [hw]; rfl
    obtain ⟨hkid, -⟩ | hrow := row_seat (t := { s with lastWallet := w.id }) h.wallet_id rfl hu
    · omega
    · exact hkept hrow
  | makeDefault owner id =>
    refine after_of (P := Traces s (.makeDefault owner id)) hsame fun {w s'} hok k u hk hu => ?_
    obtain ⟨v, hv, -, rfl, rfl⟩ := makeDefault_eq_ok.mp hok
    have hvid : v.id = id := h.wallet_id hv
    obtain ⟨rfl, rfl⟩ | hrow := row_seat h.wallet_id (w := { v with isDefault := true }) hvid hu
    · exact ⟨v, hv, fun _ => .inr rfl, .inl rfl⟩
    · exact hkept hrow
  | changeWallet id change =>
    refine after_of (P := Traces s (.changeWallet id change)) hsame fun {w s'} hok k u hk hu => ?_
    obtain ⟨v, t, hv, rfl, ht, rfl⟩ := changeWallet_eq_ok.mp hok
    have hmove : t.wallets = s.wallets := by
      obtain ⟨-, rfl⟩ | ⟨-, -, rfl⟩ := readdress_eq_ok.mp ht
      · rfl
      · rfl
    have hrows : (t.vacate id v).wallets = s.wallets := by rw [wallets_vacate, hmove]
    have hvid : v.id = id := h.wallet_id hv
    obtain ⟨rfl, rfl⟩ | hrow := row_seat (by rw [hrows]; exact h.wallet_id)
      (w := v.changed change) hvid hu
    · refine ⟨v, hv, fun hflag => .inr ⟨rfl, hflag⟩, ?_⟩
      cases hcurrency : change.currency with
      | none => exact .inl (by simp [Wallet.changed, hcurrency])
      | some currency => exact .inr ⟨rfl, by rw [hcurrency]; rfl⟩
    · rw [hrows] at hrow
      exact hkept hrow
  | closeWallet id =>
    refine after_of (P := Traces s (.closeWallet id)) hsame fun {w s'} hok k u hk hu => ?_
    obtain ⟨-, rfl⟩ := closeWallet_eq_ok.mp hok
    rw [wallets_leaveSlot, Table.get?_erase] at hu
    split at hu
    · cases hu
    · exact hsame k u hk hu
  | rebalance id compute =>
    refine after_of (P := Traces s (.rebalance id compute)) hsame fun {w s'} hok k u hk hu => ?_
    obtain ⟨v, b, hv, -, -, rfl⟩ := rebalance_eq_ok.mp hok
    have hvid : v.id = id := h.wallet_id hv
    rw [get?_putWallet] at hu
    split at hu
    · rename_i hkid
      replace hkid : k = id := hkid.trans hvid
      cases hu
      exact ⟨v, hkid ▸ hv, .inl, .inl rfl⟩
    · exact hsame k u hk hu

end Store.WalletCall

namespace Ledger

namespace Call

def Flags (k : Nat) : Call → Prop
  | .setDefault _ id _ => k = id
  | .changeWallet id change => k = id ∧ change.isDefault = true
  | _ => False

def Exchanges (k : Nat) : Call → Prop
  | .changeWallet id change => k = id ∧ (filled change.currency).isSome = true
  | _ => False

/-- The call writes nothing that another call reads first. -/
def Spares (c : Call) : Call → Prop
  | .setDefault _ id _ => ¬c.Exchanges id
  | .closeWallet id => ¬c.Flags id
  | _ => True

def reads? : Call → Option Nat
  | .setDefault _ id _ => some id
  | .closeWallet id => some id
  | _ => none

variable {s : Store} {b c : Call}

theorem after_reply {α : Type} (s : Store) (f : α → Reply) (r : Except LedgerFault (α × Store)) :
    s.after (reply f r) = s.after r := Store.after_map ..

theorem after_write (s : Store) (c : Call) :
    s.after (c.write s) = s ∨ ∃ call : Store.WalletCall, s.after (c.write s) = call.run s ∧
      (∀ k, call.Flags k → c.Flags k) ∧ ∀ k, call.Exchanges k → c.Exchanges k := by
  cases c with
  | changeWallet id change =>
    refine .inr ⟨.changeWallet id {
      currency := (filled change.currency).map Text.upper
      address := filled change.address
      isDefault := change.isDefault }, ?_, fun k h => h, fun k h => ?_⟩
    · exact (after_reply ..).trans (Store.after_mapError ..)
    · refine ⟨h.1, ?_⟩
      have hsome : ((filled change.currency).map Text.upper).isSome = true := h.2
      rwa [Option.isSome_map] at hsome
  | setDefault user id currency =>
    refine .inr ⟨.makeDefault user id, ?_, fun k h => h, fun k h => h⟩
    exact (after_reply ..).trans (Store.after_mapError ..)
  | closeWallet id =>
    refine .inr ⟨.closeWallet id, ?_, fun k h => h, fun k h => h⟩
    exact (after_reply s (fun _ => .done) _).trans (Store.after_mapError ..)
  | credit id amount =>
    have hafter : s.after ((Call.credit id amount).write s) = s.after (Ledger.credit s id amount) :=
      after_reply ..
    unfold Ledger.credit at hafter
    rw [hafter]
    split
    · exact .inl rfl
    · exact .inr ⟨.rebalance id (credited amount), Store.after_map .., fun k h => h, fun k h => h⟩
  | debit id amount =>
    have hafter : s.after ((Call.debit id amount).write s) = s.after (Ledger.debit s id amount) :=
      after_reply ..
    unfold Ledger.debit at hafter
    rw [hafter]
    split
    · exact .inl rfl
    · exact .inr ⟨.rebalance id (debited amount), Store.after_map .., fun k h => h, fun k h => h⟩
  | setBalance id balance =>
    have hafter : s.after ((Call.setBalance id balance).write s) =
        s.after (Ledger.setBalance s id balance.toInt) := after_reply ..
    unfold Ledger.setBalance at hafter
    rw [hafter]
    split
    · exact .inl rfl
    · exact .inr ⟨.rebalance id fun _ => .ok balance.toInt, rfl, fun k h => h, fun k h => h⟩
  | openAt owner currency address isDefault =>
    have hafter : s.after ((Call.openAt owner currency address isDefault).write s) =
        s.after (Ledger.openAt s owner currency address isDefault) := after_reply ..
    unfold Ledger.openAt at hafter
    rw [hafter]
    cases currencyCode currency with
    | error fault => exact .inl rfl
    | ok code =>
      refine .inr ⟨.openWallet { owner, currency := code, address, isDefault }, ?_, fun k h => h,
        fun k h => h⟩
      exact Store.after_mapError ..

theorem stands_of_finding (hs : s.Agrees) (hfind : c.finding s = some (.ok ())) :
    c.Stands s ∧ ∀ id ∈ c.reads?, id ≤ s.lastWallet := by
  cases c with
  | setDefault user id currency =>
    simp only [finding, mayBeDefault, Ledger.wallet, Store.wallet, bind, Except.bind,
      Option.some.injEq] at hfind
    cases hcode : currencyCode currency with
    | error fault => simp [hcode] at hfind
    | ok code =>
      cases hrow : s.wallets.get? id with
      | none => simp [hcode, hrow, Except.mapError] at hfind
      | some w =>
        refine ⟨fun v code' hv hcode' => ?_, fun k hk => ?_⟩
        · rw [hrow] at hv
          rw [hcode] at hcode'
          cases hv
          cases hcode'
          by_contra hne
          by_cases howner : w.owner = user <;>
            simp [hcode, hrow, Except.mapError, howner, hne] at hfind
        · rw [← Option.some.inj hk]
          exact hs.wallet_le hrow
  | closeWallet id =>
    simp only [finding, mayClose, Ledger.wallet, Store.wallet, bind, Except.bind,
      Option.some.injEq] at hfind
    cases hrow : s.wallets.get? id with
    | none => simp [hrow, Except.mapError] at hfind
    | some w =>
      refine ⟨fun v hv => ?_, fun k hk => ?_⟩
      · rw [hrow] at hv
        cases hv
        rw [Bool.eq_false_iff]
        intro hflag
        simp [hrow, Except.mapError, hflag] at hfind
      · rw [← Option.some.inj hk]
        exact hs.wallet_le hrow
  | changeWallet | credit | debit | setBalance | openAt => cases hfind

theorem agrees_write (hs : s.Agrees) (c : Call) : (s.after (c.write s)).Agrees := by
  obtain hsame | ⟨call, hcall, -⟩ := after_write s c
  · rw [hsame]
    exact hs
  · rw [hcall]
    exact call.agrees_run hs

theorem lastWallet_write (s : Store) (c : Call) :
    s.lastWallet ≤ (s.after (c.write s)).lastWallet := by
  obtain hsame | ⟨call, hcall, -⟩ := after_write s c
  · rw [hsame]
  · rw [hcall]
    obtain ⟨-, hlast⟩ | ⟨-, hlast⟩ := call.lastWallet_run s <;> omega

theorem stands_after (hs : s.Agrees) (hspares : c.Spares b) (hstands : b.Stands s)
    (hknown : ∀ id ∈ b.reads?, id ≤ s.lastWallet) : b.Stands (s.after (c.write s)) := by
  obtain hsame | ⟨call, hcall, hflags, hexchanges⟩ := after_write s c
  · rw [hsame]
    exact hstands
  · rw [hcall]
    have htraces := Store.WalletCall.traces_run hs call
    cases b with
    | setDefault user id currency =>
      intro u code hu hcode
      obtain ⟨v, hv, -, hcurrency⟩ := htraces id u (hknown id rfl) hu
      rw [hcurrency.resolve_right fun he => hspares (hexchanges id he)]
      exact hstands v code hv hcode
    | closeWallet id =>
      intro u hu
      obtain ⟨v, hv, hflag, -⟩ := htraces id u (hknown id rfl) hu
      rw [Bool.eq_false_iff]
      intro hu'
      have hv' := (hflag hu').resolve_right fun hf => hspares (hflags id hf)
      rw [hstands v hv] at hv'
      cases hv'
    | changeWallet | credit | debit | setBalance | openAt => trivial

end Call

/-- Calls that spare each other, on a store with one default wallet at most,
with all that they have read still so. -/
structure Session.Apart (x : Session) : Prop where
  agrees : x.store.Agrees
  spares : (x.calls.map Prod.fst).Pairwise fun b c => b.Spares c ∧ c.Spares b
  stands : ∀ {i : Nat} {c : Call}, x.calls[i]? = some (c, .checked) →
    c.Stands x.store ∧ ∀ id ∈ c.reads?, id ≤ x.store.lastWallet

namespace Session.Apart

variable {x : Session}

theorem spares_of_ne (h : x.Apart) {i j : Nat} {b c : Call} {σ τ : Call.Stage} (hij : i ≠ j)
    (hi : x.calls[i]? = some (b, σ)) (hj : x.calls[j]? = some (c, τ)) : b.Spares c := by
  have place : ∀ {k : Nat} {a : Call} {ρ : Call.Stage}, x.calls[k]? = some (a, ρ) →
      ∃ hk : k < (x.calls.map Prod.fst).length, (x.calls.map Prod.fst)[k] = a := by
    intro k a ρ hk
    refine List.getElem?_eq_some_iff.mp ?_
    rw [List.getElem?_map, hk]
    rfl
  obtain ⟨hilt, rfl⟩ := place hi
  obtain ⟨hjlt, rfl⟩ := place hj
  rcases Nat.lt_or_gt_of_ne hij with hlt | hlt
  · exact (List.pairwise_iff_getElem.mp h.spares i j hilt hjlt hlt).1
  · exact (List.pairwise_iff_getElem.mp h.spares j i hjlt hilt hlt).2

theorem step (h : x.Apart) (i : Nat) : (x.step i).Apart := by
  unfold Session.step
  cases hi : x.calls[i]? with
  | none => exact h
  | some p =>
    obtain ⟨c, stage⟩ := p
    obtain ⟨hstore, hchecked⟩ := Call.next_writes x.store c stage
    simp only
    refine ⟨?_, ?_, fun {j b} hj => ?_⟩
    · show Store.Agrees (c.next x.store stage).2
      rcases hstore with hstore | hstore
      · rw [hstore]
        exact h.agrees
      · rw [hstore]
        exact Call.agrees_write h.agrees c
    · rw [map_put hi]
      exact h.spares
    · show b.Stands (c.next x.store stage).2 ∧
        ∀ id ∈ b.reads?, id ≤ (c.next x.store stage).2.lastWallet
      obtain ⟨rfl, hself⟩ | ⟨hij, hold⟩ := getElem?_put hi hj
      · obtain ⟨hsame, hfind⟩ := hchecked hself
        rw [hsame]
        exact Call.stands_of_finding h.agrees hfind
      · obtain ⟨hstands, hknown⟩ := h.stands hold
        rcases hstore with hstore | hstore
        · rw [hstore]
          exact ⟨hstands, hknown⟩
        · rw [hstore]
          exact ⟨Call.stands_after h.agrees (h.spares_of_ne hij hi hold) hstands hknown,
            fun id hid => Nat.le_trans (hknown id hid) (Call.lastWallet_write x.store c)⟩

theorem allTimely (h : x.Apart) (schedule : List Nat) : x.AllTimely schedule := by
  induction schedule generalizing x with
  | nil => trivial
  | cons i rest ih => exact ⟨fun c hc => (h.stands hc).1, ih (h.step i)⟩

end Session.Apart

/-- Nobody makes a wallet a default that another closes, nor gives a currency to
one that another makes a default: then no call can find its reading past. -/
theorem allTimely_of_apart {s : Store} (hs : s.Agrees) {cs : List Call}
    (hcs : cs.Pairwise fun b c => b.Spares c ∧ c.Spares b) (schedule : List Nat) :
    (Session.begin s cs).AllTimely schedule := by
  have hapart : (Session.begin s cs).Apart := {
    agrees := hs
    spares := by simpa [Session.begin, Function.comp_def] using hcs
    stands := fun hi => by cases Session.fresh_of_begin hi }
  exact hapart.allTimely schedule

/-- **Calls whose findings hold are serializable.** If at the turn of every call
that has read what it read still holds, then the calls that have ended, in whatever
order their transactions came and however far the others have got, can be put in an
order in which, one after the other, they give the same answers and leave the same
store. And a wallet that is closed on the way is not a default when it is. -/
theorem serializable (s : Store) (cs : List Call) (schedule : List Nat)
    (ht : (Session.begin s cs).AllTimely schedule) :
    let x := (Session.begin s cs).run schedule
    (∃ order : List Nat,
      order.Perm ((List.range cs.length).filter fun i => (x.result? i).isSome) ∧
        serially s (order.filterMap (cs[·]?)) = (order.filterMap x.result?, x.store)) ∧
    ∀ before i after id, schedule = before ++ i :: after → cs[i]? = some (.closeWallet id) →
      let y := (Session.begin s cs).run before
      y.result? i = none → (y.step i).result? i = some (.ok .done) →
      ∃ w, y.store.wallets.get? id = some w ∧ w.isDefault = false := by
  intro x
  constructor
  · obtain ⟨order, h⟩ := (Serialized.begin s cs).run ht
    exact ⟨order, h.perm, h.same⟩
  · intro before i after id hschedule hi y hopen hdone
    rw [hschedule] at ht
    obtain ⟨order, h⟩ := (Serialized.begin s cs).run ht.of_append
    exact h.closed hi ht.timely hopen hdone

def twoOwners : Store :=
  [.openWallet { owner := 1, currency := "BTC", address := "a", isDefault := false },
    .openWallet { owner := 2, currency := "EUR", address := "b", isDefault := false }].foldl
      Store.WalletCall.run .empty

/-- One of the wallets is closed, the other made a default and credited. -/
def apartCalls : List Call := [.closeWallet 1, .setDefault 2 2 "eur", .credit 2 5]

theorem serializable_twoOwners :
    let x := (Session.begin twoOwners apartCalls).run [0, 1, 2, 0, 1]
    ∃ order : List Nat, order.Perm [0, 1, 2] ∧
      serially twoOwners (order.filterMap (apartCalls[·]?)) =
        (order.filterMap x.result?, x.store) := by
  intro x
  have hspares : apartCalls.Pairwise fun b c => b.Spares c ∧ c.Spares b := by
    simp [apartCalls, Call.Spares, Call.Flags, Call.Exchanges]
  have hagrees : twoOwners.Agrees := Store.agrees_foldl Store.agrees_empty _
  have htimely := allTimely_of_apart hagrees hspares [0, 1, 2, 0, 1]
  obtain ⟨⟨order, hperm, hsame⟩, -⟩ := serializable twoOwners apartCalls [0, 1, 2, 0, 1] htimely
  have hended : ((List.range apartCalls.length).filter fun i => (x.result? i).isSome) =
      [0, 1, 2] := by decide +kernel
  rw [hended] at hperm
  exact ⟨order, hperm, hsame⟩

def oneOwner : Store :=
  Store.WalletCall.run .empty
    (.openWallet { owner := 1, currency := "BTC", address := "a", isDefault := false })

/-- The wallet is closed while it is made the default. -/
def closedMeanwhile : List Call := [.closeWallet 1, .setDefault 1 1 "BTC"]

/-- **A default wallet is closed.** A call looks at the wallet, another makes it
the default, and the first closes it. Both go through, and no order of the two
one after the other would let them. -/
theorem closed_while_default :
    let x := (Session.begin oneOwner closedMeanwhile).run [0, 1, 1]
    let y := x.step 0
    (x.store.defaultWallet? 1 "BTC").map Wallet.id = some 1 ∧
    y.result? 0 = some (.ok .done) ∧ (y.result? 1).map Except.isOk = some true ∧
    y.store.wallets.get? 1 = none ∧
    ¬∃ order : List Nat, order.Perm [0, 1] ∧
      serially oneOwner (order.filterMap (closedMeanwhile[·]?)) =
        (order.filterMap y.result?, y.store) := by
  intro x y
  refine ⟨by decide +kernel, by decide +kernel, by decide +kernel, by decide +kernel, ?_⟩
  rintro ⟨order, hperm, hsame⟩
  have hcases : order = [0, 1] ∨ order = [1, 0] := by
    obtain ⟨i, j, rfl⟩ := List.length_eq_two.mp hperm.length_eq
    have hne : i ≠ j := by simpa using hperm.nodup_iff.mpr (by decide)
    have hi : i = 0 ∨ i = 1 := by simpa using hperm.subset (List.mem_cons_self (a := i))
    have hj : j = 0 ∨ j = 1 := by
      simpa using hperm.subset (List.mem_cons_of_mem i (List.mem_singleton_self j))
    rcases hi with rfl | rfl <;> rcases hj with rfl | rfl <;> simp at hne ⊢
  -- whichever comes first, the second of the two is refused
  have hanswers := congrArg (fun p => p.1.map Except.isOk) hsame
  rcases hcases with rfl | rfl
  · exact absurd hanswers (by decide +kernel)
  · exact absurd hanswers (by decide +kernel)

end Ledger

end Clearing
