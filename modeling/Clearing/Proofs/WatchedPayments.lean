import Clearing.Proofs.Registrations

/-!
# Open payments are watched, and no others

A payment is stored and watched in one go; a merge that takes it to a status
which ends watches cancels its watch, and merges take a status up only, so this
happens once. After a restart nothing is watched until the open work is taken
up.
-/

namespace Clearing

theorem Status.endsWatch_of_le {a b : Status} (h : a ≤ b) (ha : a.endsWatch = true) :
    b.endsWatch = true := by
  unfold endsWatch at *
  rw [decide_eq_true_eq] at *
  rw [le_iff] at h
  omega

@[simp] theorem Payment.receivingAddress_merged (p : Payment) (u : Update) :
    (p.merged u).receivingAddress = p.receivingAddress := by
  unfold merged
  split
  · rfl
  · split <;> rfl

namespace Store

/-- At the address there is a payment that a sighting could carry further. -/
def Awaits (s : Store) (address : String) : Prop :=
  ∃ id p, s.payments.get? id = some p ∧ p.receivingAddress = address ∧
    p.status.endsWatch = false

def openPayments (s : Store) : List Payment := s.payments.rows.filter fun p => !p.status.endsWatch

theorem awaits_iff {s : Store} {address : String} :
    s.Awaits address ↔ ∃ p ∈ s.openPayments, p.receivingAddress = address := by
  unfold Awaits openPayments
  simp only [List.mem_filter, mem_rows_iff, Bool.not_eq_true']
  constructor
  · rintro ⟨id, p, hp, haddress, hopen⟩
    exact ⟨p, ⟨⟨id, hp⟩, hopen⟩, haddress⟩
  · rintro ⟨p, ⟨⟨id, hp⟩, hopen⟩, haddress⟩
    exact ⟨id, p, hp, haddress, hopen⟩

theorem filter_unfinished (s : Store) :
    (s.payments.rows.filter fun p => !p.status.isTerminal).filter (fun p => !p.status.endsWatch) =
      s.openPayments := by
  unfold openPayments
  rw [List.filter_filter]
  refine List.filter_congr fun p _ => ?_
  cases p.status <;> rfl

/-- Every payment stands under its own id with a status that reads back, and
has one of the addresses `used` to itself. -/
structure Tidy (used : List String) (s : Store) : Prop where
  keyed : s.Keyed
  readable : ∀ {id p}, s.payments.get? id = some p → p.status.InWindow
  used : ∀ {id p}, s.payments.get? id = some p → p.receivingAddress ∈ used
  apart : ∀ {id id' p p'}, s.payments.get? id = some p → s.payments.get? id' = some p' →
    p.receivingAddress = p'.receivingAddress → id = id'

variable {used : List String} {s s' : Store} {u : Update} {p : Payment}

theorem tidy_empty : empty.Tidy [] where
  keyed h := by cases h
  readable h := by cases h
  used h := by cases h
  apart h := by cases h

theorem Tidy.congr (h : s.Tidy used) (hp : s'.payments = s.payments) : s'.Tidy used where
  keyed hrow := h.keyed (hp ▸ hrow)
  readable hrow := h.readable (hp ▸ hrow)
  used hrow := h.used (hp ▸ hrow)
  apart hrow hrow' := h.apart (hp ▸ hrow) (hp ▸ hrow')

theorem Tidy.mono (h : s.Tidy used) {used' : List String} (hsub : ∀ a ∈ used, a ∈ used') :
    s.Tidy used' :=
  { h with used := fun hrow => hsub _ (h.used hrow) }

theorem awaits_congr (hp : s'.payments = s.payments) (address : String) :
    s'.Awaits address ↔ s.Awaits address := by
  unfold Awaits
  rw [hp]

theorem Tidy.awaits_iff (h : s.Tidy used) {id : String} (hp : s.payments.get? id = some p) :
    s.Awaits p.receivingAddress ↔ p.status.endsWatch = false := by
  constructor
  · rintro ⟨id', p', hp', haddress, hopen⟩
    have hid : id' = id := h.apart hp' hp haddress
    rw [hid, hp] at hp'
    cases hp'
    exact hopen
  · exact fun hopen => ⟨id, p, hp, rfl, hopen⟩

theorem Tidy.rereads (h : s.Tidy used) {id : String} (hp : s.payments.get? id = some p) :
    s.payment id = .ok p :=
  payment_eq_ok.mpr ⟨hp, h.readable hp⟩

/-! ### Merging -/

theorem Tidy.get?_merge (h : s.Tidy used) (hp : s.payments.get? u.paymentId = some p)
    (id : String) : (s.after (s.merge u)).payments.get? id =
      if id = u.paymentId then some (p.merged u) else s.payments.get? id := by
  rw [Store.get?_merge h.keyed]
  by_cases hid : id = u.paymentId
  · rw [if_pos hid, hid, hp, Option.map_some, if_pos ⟨rfl, h.readable hp⟩]
  · rw [if_neg hid]
    cases s.payments.get? id with
    | none => rfl
    | some q => rw [Option.map_some, if_neg fun hq => hid hq.1]

theorem Tidy.merge (h : s.Tidy used) (hu : u.status.InWindow)
    (hp : s.payments.get? u.paymentId = some p) : (s.after (s.merge u)).Tidy used := by
  -- Each row comes from one under the same id and at the same address.
  have hrow : ∀ {id q}, (s.after (s.merge u)).payments.get? id = some q →
      q.status.InWindow ∧ ∃ q₀, s.payments.get? id = some q₀ ∧
        q₀.receivingAddress = q.receivingAddress := by
    intro id q hq
    rw [h.get?_merge hp] at hq
    split at hq
    · rename_i hid
      cases hq
      refine ⟨?_, p, hid ▸ hp, (p.receivingAddress_merged u).symm⟩
      rw [Payment.status_merged]
      rcases Status.next_eq_or_eq p.status u.status with hnext | hnext
      · rw [hnext]
        exact h.readable hp
      · rw [hnext]
        exact hu
    · exact ⟨h.readable hq, q, hq, rfl⟩
  exact {
    keyed := Keyed.merge h.keyed u
    readable := fun hq => (hrow hq).1
    used := fun hq => by
      obtain ⟨-, q₀, hq₀, haddress⟩ := hrow hq
      exact haddress ▸ h.used hq₀
    apart := fun hq hq' hsame => by
      obtain ⟨-, q₀, hq₀, haddress⟩ := hrow hq
      obtain ⟨-, q₀', hq₀', haddress'⟩ := hrow hq'
      exact h.apart hq₀ hq₀' (by rw [haddress, haddress', hsame]) }

theorem Tidy.awaits_merge (h : s.Tidy used) (hp : s.payments.get? u.paymentId = some p)
    (address : String) : (s.after (s.merge u)).Awaits address ↔
      if address = p.receivingAddress then (p.merged u).status.endsWatch = false
      else s.Awaits address := by
  constructor
  · rintro ⟨id, q, hq, haddress, hopen⟩
    rw [h.get?_merge hp] at hq
    split at hq
    · cases hq
      rw [Payment.receivingAddress_merged] at haddress
      rw [if_pos haddress.symm]
      exact hopen
    · rename_i hid
      rw [if_neg]
      · exact ⟨id, q, hq, haddress, hopen⟩
      · exact fun hsame => hid (h.apart hq hp (haddress.trans hsame))
  · intro hwaits
    split at hwaits
    · rename_i hsame
      refine ⟨u.paymentId, p.merged u, ?_, ?_, hwaits⟩
      · rw [h.get?_merge hp, if_pos rfl]
      · rw [Payment.receivingAddress_merged, hsame]
    · rename_i hne
      obtain ⟨id, q, hq, haddress, hopen⟩ := hwaits
      refine ⟨id, q, ?_, haddress, hopen⟩
      rw [h.get?_merge hp, if_neg]
      · exact hq
      · rintro rfl
        rw [hp] at hq
        cases hq
        exact hne haddress.symm

/-! ### A new payment -/

theorem Tidy.putPayment (h : s.Tidy used) (hnew : s.payments.get? p.id = none)
    (hread : p.status.InWindow) (hfresh : p.receivingAddress ∉ used) :
    (s.putPayment p).Tidy (used ++ [p.receivingAddress]) := by
  have hrow : ∀ {id q}, (s.putPayment p).payments.get? id = some q →
      id = p.id ∧ q = p ∨ s.payments.get? id = some q ∧ q.receivingAddress ∈ used := by
    intro id q hq
    rw [get?_putPayment] at hq
    split at hq
    · rename_i hid
      exact .inl ⟨hid, (Option.some.inj hq).symm⟩
    · exact .inr ⟨hq, h.used hq⟩
  refine { keyed := fun hq => ?_, readable := fun hq => ?_, used := fun hq => ?_,
           apart := fun hq hq' hsame => ?_ }
  · obtain ⟨rfl, rfl⟩ | ⟨hq, -⟩ := hrow hq
    · rfl
    · exact h.keyed hq
  · obtain ⟨-, rfl⟩ | ⟨hq, -⟩ := hrow hq
    · exact hread
    · exact h.readable hq
  · rw [List.mem_append, List.mem_singleton]
    obtain ⟨-, rfl⟩ | ⟨-, hused⟩ := hrow hq
    · exact .inr rfl
    · exact .inl hused
  · obtain ⟨rfl, rfl⟩ | ⟨hq, hused⟩ := hrow hq <;>
      obtain ⟨rfl, rfl⟩ | ⟨hq', hused'⟩ := hrow hq'
    · rfl
    · exact absurd (hsame ▸ hused') hfresh
    · exact absurd (hsame ▸ hused) hfresh
    · exact h.apart hq hq' hsame

theorem awaits_putPayment (hnew : s.payments.get? p.id = none)
    (hopen : p.status.endsWatch = false) (address : String) :
    (s.putPayment p).Awaits address ↔ address = p.receivingAddress ∨ s.Awaits address := by
  constructor
  · rintro ⟨id, q, hq, haddress, hq'⟩
    rw [get?_putPayment] at hq
    split at hq
    · cases hq
      exact .inl haddress.symm
    · exact .inr ⟨id, q, hq, haddress, hq'⟩
  · rintro (rfl | ⟨id, q, hq, haddress, hq'⟩)
    · exact ⟨p.id, p, by rw [get?_putPayment, if_pos rfl], rfl, hopen⟩
    · refine ⟨id, q, ?_, haddress, hq'⟩
      rw [get?_putPayment, if_neg]
      · exact hq
      · rintro rfl
        rw [hnew] at hq
        cases hq

end Store

namespace Desk

variable {full : Prop} {used as : List String} {d d' : Desk} {p : Payment} {u : Update}

/-- The payments of a desk are tidy, its watches alive, and watched are only
addresses that wait for a payment; with `full` these are all watched. -/
structure Kept (full : Prop) (used : List String) (d : Desk) : Prop where
  tidy : d.store.Tidy used
  proposed : ∀ u ∈ d.inbox, u.status.InWindow
  live : d.registry.Live
  awaited : ∀ {address}, d.registry.isWatching address = true → d.store.Awaits address
  watched : full → ∀ {address}, d.store.Awaits address → d.registry.isWatching address = true

theorem kept_start (options : Options) : (start options).Kept full [] where
  tidy := Store.tidy_empty
  proposed u hu := by cases hu
  live := Registry.live_empty
  awaited h := by cases h
  watched _ := by
    rintro address ⟨id, p, hp, -⟩
    cases hp

theorem Kept.active_iff (h : d.Kept True used) (address : String) :
    (∃ id, d.registry.Active address id) ↔ d.store.Awaits address := by
  rw [← h.live.isWatching_iff_active]
  exact ⟨h.awaited, h.watched trivial⟩

theorem Kept.congr (h : d.Kept full used) (hp : d'.store.payments = d.store.payments)
    (hr : d'.registry = d.registry) (hi : ∀ u ∈ d'.inbox, u.status.InWindow) :
    d'.Kept full used where
  tidy := h.tidy.congr hp
  proposed := hi
  live := hr ▸ h.live
  awaited hw := (Store.awaits_congr hp _).mpr (h.awaited (hr ▸ hw))
  watched hfull address hwaits := by
    rw [hr]
    exact h.watched hfull ((Store.awaits_congr hp _).mp hwaits)

theorem Kept.mono (h : d.Kept full used) {used' : List String} (hsub : ∀ a ∈ used, a ∈ used') :
    d.Kept full used' :=
  { h with tidy := h.tidy.mono hsub }

/-! ### What passes payments and watches by -/

theorem Aside.payments (h : d.Aside d') : d'.store.payments = d.store.payments := by
  cases h with
  | ledger op => exact Ledger.Op.payments_run d.store op
  | linkTx h =>
    obtain ⟨r, -, -, -, rfl⟩ := Store.linkTx_eq_some h
    rfl
  | proceed a _ => exact Attempt.payments_proceed d.options.policy d.store a
  | wait | ask | see | addTransfer => rfl

theorem Aside.inbox (h : d.Aside d') : d'.inbox = d.inbox := by
  cases h <;> rfl

theorem inbox_submit (d : Desk) (u : Update) :
    (d.submit u).2.inbox = d.inbox ∨ (d.submit u).2.inbox = d.inbox ++ [u] := by
  unfold submit
  split
  · exact .inl rfl
  · simp only
    split <;> exact .inr rfl

theorem inbox_apply (d : Desk) (u : Update) : (d.apply u).2.inbox = d.inbox := by
  unfold apply
  cases d.store.merge u with
  | error fault => rfl
  | ok q =>
    obtain ⟨o, store⟩ := q
    cases o with
    | applied p =>
      simp only [announce]
      split <;> rfl
    | unchanged p => rfl
    | stale p => rfl

theorem Kept.submit (h : d.Kept full used) (hu : u.status.InWindow) :
    (d.submit u).2.Kept full used := by
  refine h.congr (by rw [store_submit]) (registry_submit d u) fun v hv => ?_
  rcases inbox_submit d u with hi | hi
  · rw [hi] at hv
    exact h.proposed v hv
  · rw [hi, List.mem_append, List.mem_singleton] at hv
    rcases hv with hv | rfl
    · exact h.proposed v hv
    · exact hu

/-! ### Merging -/

theorem registry_apply_of_payment (hp : d.store.payment u.paymentId = .ok p) :
    (d.apply u).2.registry =
      if (p.merged u).status ≠ p.status ∧ (p.merged u).status.endsWatch = true then
        (d.registry.cancel p.receivingAddress).2
      else d.registry := by
  have hanswer : (d.apply u).1 = .ok (p.outcome u) := by
    unfold apply Store.merge
    rw [hp]
  rw [registry_apply, hanswer]
  unfold Payment.outcome
  by_cases hacc : p.status.accepts u.status = true
  · rw [hacc]
    by_cases hsame : (p.merged u).status = p.status
    · simp [hsame]
    · simp [hsame]
  · have hstays : p.merged u = p := by simp [Payment.merged, hacc]
    simp [hacc, hstays]

/-- A merge ends the watch at the payment's address if its new status ends
watches, and no other. -/
theorem Kept.isWatching_apply (h : d.Kept full used)
    (hp : d.store.payments.get? u.paymentId = some p) (address : String) :
    (d.apply u).2.registry.isWatching address = true ↔
      d.registry.isWatching address = true ∧
        ¬(address = p.receivingAddress ∧ (p.merged u).status.endsWatch = true) := by
  rw [registry_apply_of_payment (h.tidy.rereads hp)]
  by_cases hends : (p.merged u).status.endsWatch = true
  · by_cases hsame : (p.merged u).status = p.status
    · -- The payment has been finished before, so its address is not watched.
      rw [if_neg fun hc => hc.1 hsame, iff_self_and]
      rintro hw ⟨rfl, -⟩
      have hopen := (h.tidy.awaits_iff hp).mp (h.awaited hw)
      rw [← hsame, hends] at hopen
      cases hopen
    · rw [if_pos ⟨hsame, hends⟩, Registry.isWatching_iff, Registry.isWatching_iff]
      simp only [Registry.get?_cancel]
      by_cases ha : address = p.receivingAddress
      · simp [ha, hends]
      · simp [ha]
  · rw [if_neg fun hc => hends hc.2]
    simp [hends]

theorem Kept.apply (h : d.Kept full used) (hu : u.status.InWindow) :
    (d.apply u).2.Kept full used := by
  cases hp : d.store.payments.get? u.paymentId with
  | none =>
    have hsame : (d.apply u).2 = d := by
      unfold Desk.apply Store.merge Store.payment
      rw [hp]
    rw [hsame]
    exact h
  | some p =>
    have hwaits : ∀ address, (d.apply u).2.store.Awaits address ↔
        if address = p.receivingAddress then (p.merged u).status.endsWatch = false
        else d.store.Awaits address := fun address => by
      rw [store_apply]
      exact h.tidy.awaits_merge hp address
    have hstill : (p.merged u).status.endsWatch = false → p.status.endsWatch = false := by
      intro hopen
      rw [Bool.eq_false_iff] at hopen ⊢
      exact fun hends => hopen (Status.endsWatch_of_le (p.le_status_merged u) hends)
    exact {
      tidy := by
        rw [store_apply]
        exact h.tidy.merge hu hp
      proposed := by
        rw [inbox_apply]
        exact h.proposed
      live := by
        rw [registry_apply_of_payment (h.tidy.rereads hp)]
        split
        · exact h.live.cancel _
        · exact h.live
      awaited := fun {address} hw => by
        obtain ⟨hw, hne⟩ := (h.isWatching_apply hp address).mp hw
        rw [hwaits]
        split
        · rename_i ha
          exact Bool.eq_false_iff.mpr fun hends => hne ⟨ha, hends⟩
        · exact h.awaited hw
      watched := fun hfull address hwaits' => by
        rw [hwaits] at hwaits'
        rw [h.isWatching_apply hp]
        split at hwaits'
        · rename_i ha
          have hopen := (h.tidy.awaits_iff hp).mpr (hstill hwaits')
          exact ⟨ha ▸ h.watched hfull hopen, fun hc => by simp [hwaits'] at hc⟩
        · rename_i ha
          exact ⟨h.watched hfull hwaits', fun hc => ha hc.1⟩ }

theorem Kept.mergeAll (h : d.Kept full used) {us : List Update}
    (hus : ∀ u ∈ us, u.status.InWindow) : (d.mergeAll us).Kept full used := by
  induction us generalizing d with
  | nil => exact h
  | cons u us ih =>
    exact ih (h.apply (hus u List.mem_cons_self)) fun v hv => hus v (List.mem_cons_of_mem _ hv)

theorem Kept.mergeInbox (h : d.Kept full used) : d.mergeInbox.Kept full used := by
  have hempty : Kept full used { d with inbox := [] } := h.congr rfl rfl fun u hu => by cases hu
  rw [mergeInbox_eq]
  exact hempty.mergeAll h.proposed

/-! ### Watching -/

theorem Kept.openPayment (h : d.Kept full used) {w : Watch} {registry : Registry}
    (hfresh : (used ++ [p.receivingAddress]).Nodup)
    (hnew : d.store.payments.get? p.id = none) (hwaits : p.status = .waiting)
    (hw : d.registry.register p.receivingAddress d.options.network (.payment p.id) =
      .ok (w, registry)) :
    ({ d with store := d.store.putPayment p, registry }.later 0 (.watch w .pausing)).Kept full
      (used ++ [p.receivingAddress]) := by
  obtain ⟨-, -, -, rfl⟩ := Registry.register_eq_ok.mp hw
  have hopen : p.status.endsWatch = false := by
    rw [hwaits]
    rfl
  have hunused : p.receivingAddress ∉ used := fun hused =>
    (List.nodup_append.mp hfresh).2.2 _ hused _ (List.mem_singleton_self _) rfl
  exact {
    tidy := h.tidy.putPayment hnew (by rw [hwaits]; trivial) hunused
    proposed := h.proposed
    live := h.live.insert _
    awaited := fun {address} hwatched =>
      (Store.awaits_putPayment hnew hopen address).mpr
        (((Registry.isWatching_insert ..).mp hwatched).imp id h.awaited)
    watched := fun hfull address hwaits' =>
      (Registry.isWatching_insert ..).mpr
        (((Store.awaits_putPayment hnew hopen address).mp hwaits').imp id (h.watched hfull)) }

theorem Kept.rewatch (h : d.Kept full used) {id : String}
    (hp : d.store.payments.get? id = some p) (hopen : p.status.endsWatch = false) :
    (d.watchPayment p).2.Kept full used := by
  have hstore : (d.watchPayment p).2.store = d.store := store_watch d _ _ _
  have hinbox : (d.watchPayment p).2.inbox = d.inbox := by
    unfold watchPayment watch
    split <;> rfl
  obtain hr | ⟨-, -, hr⟩ :=
    d.registry_watch p.receivingAddress d.options.network (.payment p.id)
  · exact h.congr (by rw [hstore]) hr (by rw [hinbox]; exact h.proposed)
  · replace hr : (d.watchPayment p).2.registry = _ := hr
    exact {
      tidy := hstore ▸ h.tidy
      proposed := hinbox ▸ h.proposed
      live := hr ▸ h.live.insert _
      awaited := fun {address} hw => by
        rw [hr, Registry.isWatching_insert] at hw
        rw [hstore]
        rcases hw with rfl | hw
        · exact ⟨id, p, hp, rfl, hopen⟩
        · exact h.awaited hw
      watched := fun hfull address hwaits => by
        rw [hstore] at hwaits
        rw [hr, Registry.isWatching_insert]
        exact .inr (h.watched hfull hwaits) }

theorem Kept.trackStep (hfresh : (used ++ as).Nodup) (h : d.Kept full used)
    (hs : d.TrackStep False as d') : d'.Kept full (used ++ as) := by
  have hsame : ∀ {d' : Desk}, d'.Kept full used → d'.Kept full (used ++ []) := by
    intro d' hk
    rwa [List.append_nil]
  cases hs with
  | aside ha =>
    exact hsame (h.congr ha.payments ha.registry (by rw [ha.inbox]; exact h.proposed))
  | submit hu => exact hsame (h.submit (hu.resolve_left id))
  | apply hu => exact hsame (h.apply (hu.resolve_left id))
  | mergeInbox => exact hsame h.mergeInbox
  | waste address => exact h.mono fun a ha => List.mem_append_left _ ha
  | openPayment hnew hwaits hw => exact h.openPayment hfresh hnew hwaits hw
  | rewatch hp hopen => exact hsame (h.rewatch hp hopen)
  | endWatch hw => exact hsame (h.congr rfl (h.live.release_of_cancelled hw) h.proposed)
  | meddle hf _ => exact hf.elim

theorem Kept.trackSteps (h : d.Kept full used) (hs : d.TrackSteps False as d')
    (hfresh : (used ++ as).Nodup) : d'.Kept full (used ++ as) :=
  hs.invariant (P := Kept full) (fun hfresh hk hs => hk.trackStep hfresh hs) hfresh h

/-! ### Opening anew -/

theorem isWatching_watchAll (d : Desk) (started : Nat) (ps : List Payment)
    (hs : d.registry.stopped = false) :
    ∃ n d', d.watchAll started ps = (.ok n, d') ∧ ∀ address,
      d'.registry.isWatching address = true ↔
        d.registry.isWatching address = true ∨ ∃ p ∈ ps, p.receivingAddress = address := by
  induction ps generalizing d started with
  | nil => exact ⟨started, d, rfl, by simp⟩
  | cons p ps ih =>
    unfold watchAll watchPayment
    cases hw : d.registry.isWatching p.receivingAddress with
    | true =>
      obtain ⟨n, d', hall, hwatching⟩ := ih d started hs
      rw [d.watch_of_watched _ _ hs hw]
      refine ⟨n, d', hall, fun address => ?_⟩
      rw [hwatching]
      simp only [List.mem_cons, exists_eq_or_imp]
      refine ⟨Or.imp_right .inr, ?_⟩
      rintro (hold | rfl | hmem)
      · exact .inl hold
      · exact .inl hw
      · exact .inr hmem
    | false =>
      obtain ⟨w, d₁, hwatch, hs₁, hnow⟩ :=
        d.watch_of_unwatched d.options.network (.payment p.id) hs hw
      obtain ⟨n, d', hall, hwatching⟩ := ih d₁ (started + 1) hs₁
      rw [hwatch]
      refine ⟨n, d', hall, fun address => ?_⟩
      rw [hwatching, hnow]
      simp only [List.mem_cons, exists_eq_or_imp, eq_comm (a := address)]
      rw [or_assoc, or_left_comm]

theorem registry_scheduleAll (d : Desk) (ts : List Transfer) :
    (ts.foldl (fun d t => d.schedule t.id) d).registry = d.registry := by
  induction ts generalizing d with
  | nil => rfl
  | cons t ts ih => exact ih (d.schedule t.id)

theorem resumeWatches_eq
    (hread : ∀ {id p}, d.store.payments.get? id = some p → p.status.InWindow) :
    d.resumeWatches = d.watchAll 0 d.store.openPayments := by
  unfold resumeWatches
  rw [Store.unfinishedPayments_of_readable hread]
  simp only [Store.filter_unfinished]

theorem resume_eq (hread : ∀ {id p}, d.store.payments.get? id = some p → p.status.InWindow)
    (hs : d.registry.stopped = false) :
    d.resume = (.ok (), (d.watchAll 0 d.store.openPayments).2.resumeTransfers.2) := by
  obtain ⟨n, d', hall, -⟩ := d.isWatching_watchAll 0 d.store.openPayments hs
  unfold resume
  rw [resumeWatches_eq hread, hall]

theorem registry_resume (hread : ∀ {id p}, d.store.payments.get? id = some p → p.status.InWindow)
    (hs : d.registry.stopped = false) :
    d.resume.2.registry = (d.watchAll 0 d.store.openPayments).2.registry := by
  rw [resume_eq hread hs]
  exact registry_scheduleAll _ _

theorem isWatching_resume (hread : ∀ {id p}, d.store.payments.get? id = some p → p.status.InWindow)
    (hs : d.registry.stopped = false) (address : String) :
    d.resume.2.registry.isWatching address = true ↔
      d.registry.isWatching address = true ∨ d.store.Awaits address := by
  obtain ⟨n, d', hall, hwatching⟩ := d.isWatching_watchAll 0 d.store.openPayments hs
  rw [registry_resume hread hs, hall, Store.awaits_iff]
  exact hwatching address

/-- A desk that is restarted and takes up its open work watches as before. -/
theorem Kept.reopen (h : d.Kept True used) (hfresh : used.Nodup) :
    d.restart.resume.2.Kept True used := by
  have hrestart : d.restart.Kept False used := {
    tidy := h.tidy
    proposed := fun u hu => by cases hu
    live := Registry.live_empty
    awaited := fun hw => by cases hw
    watched := False.elim }
  have hresume : d.restart.resume.2.Kept False (used ++ []) :=
    hrestart.trackSteps (trackSteps_resume d.restart) (by rwa [List.append_nil])
  rw [List.append_nil] at hresume
  refine { hresume with watched := fun _ address hwaits => ?_ }
  rw [store_resume] at hwaits
  exact (isWatching_resume hrestart.tidy.readable rfl address).mpr (.inr hwaits)

/-! ### Every run -/

/-- What happens to a desk: it is asked for something, or it is restarted and
takes up its open work at once. -/
inductive Act
  | ask (op : Op)
  | reopen

namespace Act

def run (d : Desk) : Act → Desk
  | .ask op => op.run d
  | .reopen => d.restart.resume.2

def SparesWatches : Act → Prop
  | .ask op => op.SparesWatches
  | .reopen => True

def handsOut (d : Desk) : Act → List String
  | .ask op => op.handsOut d
  | .reopen => []

end Act

def runActs (d : Desk) (acts : List Act) : Desk := acts.foldl Act.run d

def handedOut (d : Desk) : List Act → List String
  | [] => []
  | act :: acts => act.handsOut d ++ (act.run d).handedOut acts

theorem Kept.act (h : d.Kept True used) {act : Act} (hact : act.SparesWatches)
    (hfresh : (used ++ act.handsOut d).Nodup) : (act.run d).Kept True (used ++ act.handsOut d) := by
  cases act with
  | ask op =>
    by_cases hjournal : op = .takeJournal
    · subst hjournal
      show d.takeJournal.2.Kept True (used ++ [])
      rw [List.append_nil]
      exact h.congr rfl rfl h.proposed
    · exact h.trackSteps (trackSteps_run op (.inr hact) hjournal) hfresh
  | reopen =>
    show d.restart.resume.2.Kept True (used ++ [])
    rw [List.append_nil]
    exact h.reopen (List.nodup_append.mp hfresh).1

theorem Kept.acts (h : d.Kept True used) {acts : List Act}
    (hacts : ∀ act ∈ acts, act.SparesWatches) (hfresh : (used ++ d.handedOut acts).Nodup) :
    (d.runActs acts).Kept True (used ++ d.handedOut acts) := by
  induction acts generalizing d used with
  | nil =>
    show d.Kept True (used ++ [])
    rwa [List.append_nil]
  | cons act acts ih =>
    unfold handedOut at hfresh ⊢
    rw [← List.append_assoc] at hfresh ⊢
    exact ih (h.act (hacts act List.mem_cons_self) (List.nodup_append.mp hfresh).1)
      (fun a ha => hacts a (List.mem_cons_of_mem _ ha)) hfresh

/-- **Open payments are watched, and no others.** Let the node hand out no address
for payments twice, let nobody watch, cancel or stop anything on their own account,
and let every proposed status read back. Then, whatever happens to a desk from its
start, and also in the middle of merging updates, the addresses with a watch that is
not cancelled are those of the stored payments whose status does not end watches. -/
theorem watched_exactly (options : Options) (acts : List Act)
    (hacts : ∀ act ∈ acts, act.SparesWatches) (hfresh : ((start options).handedOut acts).Nodup)
    (us : List Update) (hus : ∀ u ∈ us, u.status.InWindow) (address : String) :
    let d := ((start options).runActs acts).mergeAll us
    (∃ id, d.registry.Active address id) ↔
      ∃ id p, d.store.payments.get? id = some p ∧ p.receivingAddress = address ∧
        p.status.endsWatch = false := by
  intro d
  have hkept : d.Kept True ([] ++ (start options).handedOut acts) :=
    ((kept_start options).acts hacts hfresh).mergeAll hus
  exact hkept.active_iff address

/-- Two payments are opened, one of them is seen confirmed, and the desk opens
anew. -/
def oneOfTwoConfirmed : List Act :=
  [.ask (.script { Node.Script.empty with addresses := ["a", "b"] }),
    .ask (.createPayment "p" anyRequest), .ask (.createPayment "q" anyRequest),
    .ask (.update (.ofSighting "p" (.of World.firstTx 7))), .reopen]

/-- The other one is then watched, and stays so when it is pending. -/
theorem watched_exactly_other :
    ∃ id, (((start (ofStore .empty).options).runActs oneOfTwoConfirmed).mergeAll
      [.ofWebhook "q" .pending]).registry.Active "b" id := by
  have hacts : ∀ act ∈ oneOfTwoConfirmed, act.SparesWatches := by
    simp [oneOfTwoConfirmed, Act.SparesWatches, Op.SparesWatches, Update.ofSighting,
      Status.inWindow_ofDepth]
  refine (watched_exactly (ofStore .empty).options oneOfTwoConfirmed hacts (by decide)
    [.ofWebhook "q" .pending] (by decide) "b").mpr ⟨"q", _, rfl, rfl, rfl⟩

end Desk
end Clearing
