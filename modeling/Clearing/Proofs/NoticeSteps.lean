import Clearing.Proofs.TrackSteps
import Mathlib.Data.List.Destutter

/-!
# What is published of a payment

A desk goes from commit to commit, and `Desk.NoticeStep` says what one of them
does to the store and to the notices: a merge publishes the payment if its
status is a new one, an attempt publishes its transfer when that is settled,
and all other writes are silent. Along a run the notices of a payment are the
statuses it takes one after the other, which rank higher and higher.
-/

namespace Clearing

/-! ### Commits and their notices -/

inductive Store.Silent (s : Store) : Store → Prop
  | keep : Silent s s
  | ledger (op : Ledger.Op) : Silent s (op.run s)
  | addTransfer (new : NewTransfer) : Silent s (s.addTransfer new).2
  | linkTx {id tx t s'} (h : s.linkTx id tx = .ok (some t, s')) : Silent s s'
  | openPayment {p : Payment} (hnew : s.payments.get? p.id = none) (hwaits : p.status = .waiting) :
      Silent s (s.putPayment p)

namespace Desk

/-- One commit of a desk, with what is published at it. -/
inductive NoticeStep (d : Desk) : Desk → Prop
  | silent {d'} (hstore : d.store.Silent d'.store)
      (hnotices : d'.journal.notices = d.journal.notices) : NoticeStep d d'
  | merge (u : Update) : NoticeStep d (d.apply u).2
  | proceed (a : Attempt) (ha : a.stage.isEarly = true) : NoticeStep d (d.proceed a).2

/-- Commits one after the other, with the desks after each of them. -/
inductive NoticeSteps : Desk → List Desk → Desk → Prop
  | refl (d) : NoticeSteps d [] d
  | cons {d d' ds d''} (h : d.NoticeStep d') (h' : NoticeSteps d' ds d'') :
      NoticeSteps d (d' :: ds) d''

variable {d d' d'' : Desk}

theorem NoticeSteps.append {ds es : List Desk} (h : d.NoticeSteps ds d')
    (h' : d'.NoticeSteps es d'') : d.NoticeSteps (ds ++ es) d'' := by
  induction h with
  | refl => exact h'
  | cons hb _ ih => exact .cons hb (ih h')

def Reaches (d d' : Desk) : Prop := ∃ ds, d.NoticeSteps ds d'

namespace Reaches

theorem refl (d : Desk) : d.Reaches d := ⟨[], .refl d⟩

theorem one (h : d.NoticeStep d') : d.Reaches d' := ⟨[d'], .cons h (.refl d')⟩

theorem trans (h : d.Reaches d') (h' : d'.Reaches d'') : d.Reaches d'' := by
  obtain ⟨ds, hds⟩ := h
  obtain ⟨es, hes⟩ := h'
  exact ⟨ds ++ es, hds.append hes⟩

theorem beside (hstore : d'.store = d.store)
    (hnotices : d'.journal.notices = d.journal.notices) : d.Reaches d' :=
  one (.silent (by rw [hstore]; exact .keep) hnotices)

end Reaches

/-! ### Every run goes by steps -/

theorem notices_submit (d : Desk) (u : Update) :
    (d.submit u).2.journal.notices = d.journal.notices := by
  unfold submit
  split
  · rfl
  · simp only
    split <;> rfl

theorem notices_watch (d : Desk) (address : String) (network : Network) (observer : Observer) :
    (d.watch address network observer).2.journal.notices = d.journal.notices := by
  unfold watch
  split <;> rfl

theorem reaches_mergeAll (d : Desk) (us : List Update) : d.Reaches (d.mergeAll us) := by
  induction us generalizing d with
  | nil => exact .refl d
  | cons u us ih => exact (Reaches.one (.merge u)).trans (ih (d.apply u).2)

theorem Aside.reaches (h : d.Aside d') : d.Reaches d' := by
  cases h with
  | wait | ask | see => exact .beside rfl rfl
  | ledger op => exact .one (.silent (.ledger op) rfl)
  | addTransfer new => exact .one (.silent (.addTransfer new) rfl)
  | linkTx h => exact .one (.silent (.linkTx h) rfl)
  | proceed a ha => exact .one (.proceed a ha)

theorem Meddled.reaches (h : d.Meddled d') : d.Reaches d' := by
  cases h with
  | watch address network observer =>
    exact .beside (store_watch d _ _ _) (notices_watch d _ _ _)
  | cancelAddress | cancelHandle | stopWatches | stop | restart => exact .beside rfl rfl

theorem TrackStep.reaches {free : Prop} {as : List String} (h : d.TrackStep free as d') :
    d.Reaches d' := by
  cases h with
  | aside h => exact h.reaches
  | submit _ => exact .beside (store_submit d _) (notices_submit d _)
  | apply _ => exact .one (.merge _)
  | mergeInbox =>
    rw [mergeInbox_eq]
    have hcleared : d.Reaches { d with inbox := [] } := .beside rfl rfl
    exact hcleared.trans (reaches_mergeAll _ _)
  | waste address => exact .refl d
  | openPayment hnew hwaits hw => exact .one (.silent (.openPayment hnew hwaits) rfl)
  | rewatch hp hopen => exact .beside (store_watch d _ _ _) (notices_watch d _ _ _)
  | endWatch hw => exact .beside rfl rfl
  | meddle hf h => exact h.reaches

theorem TrackSteps.reaches {free : Prop} {as : List String} (h : d.TrackSteps free as d') :
    d.Reaches d' := by
  induction h with
  | refl d => exact .refl d
  | cons hs _ ih => exact hs.reaches.trans ih

/-! ### The journal

A journal that is taken out is gone from the desk. `Desk.putBack` puts the
notices back, before the later ones; the steps are the same with them. -/

/-- What was taken out of the journal in a run. -/
def taken (d : Desk) : List Op → List Notice
  | [] => []
  | .takeJournal :: ops => d.journal.notices ++ d.takeJournal.2.taken ops
  | op :: ops => (op.run d).taken ops

def putBack (d : Desk) (ns : List Notice) : Desk :=
  { d with journal := { d.journal with notices := ns ++ d.journal.notices } }

theorem putBack_publish (d : Desk) (ns ns' : List Notice) :
    (d.putBack ns).publish ns' = (d.publish ns').putBack ns := by
  unfold publish putBack
  rw [List.append_assoc]

theorem putBack_announce (d : Desk) (ns : List Notice) (o : Outcome) :
    (d.putBack ns).announce o = (d.announce o).putBack ns := by
  cases o with
  | unchanged | stale => rfl
  | applied p =>
    simp only [announce, putBack_publish]
    split <;> rfl

theorem putBack_apply (d : Desk) (ns : List Notice) (u : Update) :
    ((d.putBack ns).apply u).2 = (d.apply u).2.putBack ns := by
  have hstore : (d.putBack ns).store = d.store := rfl
  unfold apply
  rw [hstore]
  cases d.store.merge u with
  | error fault => rfl
  | ok q => exact putBack_announce { d with store := q.2 } ns q.1

theorem putBack_proceed (d : Desk) (ns : List Notice) (a : Attempt) :
    ((d.putBack ns).proceed a).2 = (d.proceed a).2.putBack ns :=
  putBack_publish { d with store := (a.proceed d.options.policy d.store).2.1 } ns
    (a.proceed d.options.policy d.store).2.2

theorem NoticeStep.putBack (h : d.NoticeStep d') (ns : List Notice) :
    (d.putBack ns).NoticeStep (d'.putBack ns) := by
  cases h with
  | silent hstore hnotices => exact .silent hstore (congrArg (ns ++ ·) hnotices)
  | merge u =>
    rw [← putBack_apply]
    exact .merge u
  | proceed a ha =>
    rw [← putBack_proceed]
    exact .proceed a ha

theorem Reaches.putBack (h : d.Reaches d') (ns : List Notice) :
    (d.putBack ns).Reaches (d'.putBack ns) := by
  obtain ⟨ds, h⟩ := h
  induction h with
  | refl d => exact .refl _
  | cons hb _ ih => exact (Reaches.one (hb.putBack ns)).trans ih

theorem taken_cons_of_ne {op : Op} (hop : op ≠ .takeJournal) (d : Desk) (ops : List Op) :
    d.taken (op :: ops) = (op.run d).taken ops := by
  cases op <;> first | rfl | exact absurd rfl hop

theorem taken_append (d : Desk) (ops ops' : List Op) :
    d.taken (ops ++ ops') = d.taken ops ++ (d.runOps ops).taken ops' := by
  induction ops generalizing d with
  | nil => rfl
  | cons op ops ih =>
    by_cases hop : op = .takeJournal
    · subst hop
      rw [List.cons_append, taken, taken, ih, List.append_assoc]
      rfl
    · rw [List.cons_append, taken_cons_of_ne hop, taken_cons_of_ne hop, ih]
      rfl

/-- The desk after a run, with what was taken out of its journal put back. -/
def after (d : Desk) (ops : List Op) : Desk := (d.runOps ops).putBack (d.taken ops)

theorem reaches_call (d : Desk) (ns : List Notice) (op : Op) :
    (d.putBack ns).Reaches ((op.run d).putBack (ns ++ d.taken [op])) := by
  by_cases hop : op = .takeJournal
  · subst hop
    rw [taken, taken, List.append_nil]
    exact .beside rfl (List.append_nil _)
  · have hrun : d.TrackSteps True (op.handsOut d) (op.run d) := trackSteps_run op (.inl trivial) hop
    rw [taken_cons_of_ne hop, taken, List.append_nil]
    exact hrun.reaches.putBack ns

theorem after_reaches (d : Desk) (ops : List Op) (op : Op) :
    (d.after ops).Reaches (d.after (ops ++ [op])) := by
  have hrun : d.runOps (ops ++ [op]) = op.run (d.runOps ops) := by
    unfold runOps
    rw [List.foldl_concat]
  unfold after
  rw [hrun, taken_append]
  exact reaches_call _ _ op

/-- The steps of some calls, each behind those of the calls before it. -/
def stepsAlong (leg : List Op → Op → List Desk) (before : List Op) : List Op → List Desk
  | [] => []
  | op :: ops => leg before op ++ stepsAlong leg (before ++ [op]) ops

section

variable {leg : List Op → Op → List Desk}

theorem stepsAlong_append (before ops ops' : List Op) :
    stepsAlong leg before (ops ++ ops') =
      stepsAlong leg before ops ++ stepsAlong leg (before ++ ops) ops' := by
  induction ops generalizing before with
  | nil => rw [List.append_nil]; rfl
  | cons op ops ih =>
    rw [List.cons_append, stepsAlong, stepsAlong, ih, List.append_assoc, List.append_assoc]
    rfl

theorem steps_along
    (hleg : ∀ ops op, (d.after ops).NoticeSteps (leg ops op) (d.after (ops ++ [op])))
    (before ops : List Op) :
    (d.after before).NoticeSteps (stepsAlong leg before ops) (d.after (before ++ ops)) := by
  induction ops generalizing before with
  | nil => rw [List.append_nil]; exact .refl _
  | cons op ops ih =>
    have hrest := ih (before ++ [op])
    rw [List.append_assoc] at hrest
    exact (hleg before op).append hrest

end

/-- Every run goes by steps, if what is taken out of the journal is put back; and
a longer run goes on from where a shorter one has come to. -/
theorem exists_noticeSteps (d : Desk) : ∃ path : List Op → List Desk,
    (∀ ops, d.NoticeSteps (path ops) (d.after ops)) ∧
    ∀ ops ops', path ops <+: path (ops ++ ops') := by
  choose leg hleg using fun ops op => d.after_reaches ops op
  exact ⟨stepsAlong leg [], steps_along hleg [],
    fun ops ops' => ⟨_, (stepsAlong_append [] ops ops').symm⟩⟩

end Desk

/-! ### What a merge publishes -/

namespace Payment

theorem outcome_cases (p : Payment) (u : Update) :
    ((p.merged u).status = p.status ∧ ∀ q, p.outcome u ≠ .applied q) ∨
      p.status < (p.merged u).status ∧ p.outcome u = .applied (p.merged u) := by
  unfold outcome
  cases hacc : p.status.accepts u.status with
  | false =>
    left
    rw [status_merged, Status.next, hacc]
    exact ⟨rfl, by simp⟩
  | true =>
    rw [Bool.not_true, if_neg Bool.false_ne_true]
    by_cases hstatus : (p.merged u).status = p.status
    · rw [if_pos hstatus]
      exact .inl ⟨hstatus, by simp⟩
    · rw [if_neg hstatus]
      obtain ⟨hopen, hle⟩ := Status.accepts_iff.mp hacc
      have hnext : (p.merged u).status = u.status := by
        rw [status_merged, Status.next, hacc, if_pos rfl]
      refine .inr ⟨?_, rfl⟩
      rw [hnext, Status.lt_iff_not_le]
      rw [hnext] at hstatus
      exact fun hge => hstatus (Status.le_antisymm hopen hle hge).symm

end Payment

def Notice.isOf (subject : Subject) (id : String) (n : Notice) : Bool :=
  n.subject == subject && n.id == id

theorem Notice.isOf_eq_false {n : Notice} {subject : Subject} (h : n.subject ≠ subject)
    (id : String) : n.isOf subject id = false := by
  simp [isOf, h]

namespace Desk

variable {d d' : Desk} {id : String}

def noticesOf (d : Desk) (subject : Subject) (id : String) : List Notice :=
  d.journal.notices.filter (Notice.isOf subject id)

def status? (d : Desk) (id : String) : Option Status :=
  (d.store.payments.get? id).map Payment.status

def paymentNotice (id : String) (s : Status) : Notice :=
  { subject := .payment, id, status := s.text }

theorem noticesOf_congr (h : d'.journal.notices = d.journal.notices) (subject : Subject)
    (id : String) : d'.noticesOf subject id = d.noticesOf subject id := by
  unfold noticesOf
  rw [h]

theorem noticesOf_append {ns : List Notice} (h : d'.journal.notices = d.journal.notices ++ ns)
    (subject : Subject) (id : String) :
    d'.noticesOf subject id = d.noticesOf subject id ++ ns.filter (Notice.isOf subject id) := by
  unfold noticesOf
  rw [h, List.filter_append]

theorem noticesOf_of_ne {p : Payment}
    (h : d'.journal.notices = d.journal.notices ++ [p.notice]) (hne : p.id ≠ id) :
    d'.noticesOf .payment id = d.noticesOf .payment id := by
  rw [noticesOf_append h, List.filter_cons_of_neg (by simp [Notice.isOf, Payment.notice, hne]),
    List.filter_nil, List.append_nil]

theorem status?_congr (h : d'.store.payments = d.store.payments) (id : String) :
    d'.status? id = d.status? id := by
  unfold status?
  rw [h]

theorem apply_cases (d : Desk) (u : Update) :
    (d.store.after (d.store.merge u) = d.store ∧
      (d.apply u).2.journal.notices = d.journal.notices) ∨
    ∃ p, d.store.payment u.paymentId = .ok p ∧
      (((p.merged u).status = p.status ∧ (d.apply u).2.journal.notices = d.journal.notices) ∨
        p.status < (p.merged u).status ∧
          (d.apply u).2.journal.notices = d.journal.notices ++ [(p.merged u).notice]) := by
  unfold apply
  cases hm : d.store.merge u with
  | error fault => exact .inl ⟨rfl, rfl⟩
  | ok q =>
    obtain ⟨o, store⟩ := q
    obtain ⟨p, hp, rfl, -⟩ := Store.merge_eq_ok hm
    refine .inr ⟨p, hp, ?_⟩
    obtain ⟨hsame, hnot⟩ | ⟨hhigher, happlied⟩ := p.outcome_cases u
    · left
      refine ⟨hsame, ?_⟩
      cases ho : p.outcome u with
      | applied q => exact absurd ho (hnot q)
      | unchanged q => rfl
      | stale q => rfl
    · right
      refine ⟨hhigher, ?_⟩
      rw [happlied]
      simp only [announce]
      split <;> rfl

end Desk

/-! ### Step by step -/

theorem Store.Silent.payments {s s' : Store} (h : s.Silent s') :
    s'.payments = s.payments ∨
      ∃ p, s.payments.get? p.id = none ∧ p.status = .waiting ∧ s' = s.putPayment p := by
  cases h with
  | keep => exact .inl rfl
  | ledger op => exact .inl (Ledger.Op.payments_run s op)
  | addTransfer new => exact .inl rfl
  | linkTx h =>
    obtain ⟨r, -, -, -, rfl⟩ := Store.linkTx_eq_some h
    exact .inl rfl
  | openPayment hnew hwaits => exact .inr ⟨_, hnew, hwaits, rfl⟩

theorem Attempt.subject_steps (policy : Policy) (n : Nat) (s : Store) (a : Attempt) :
    ∀ notice ∈ (a.steps policy n s).2.2, notice.subject = .transfer := by
  induction n generalizing s a with
  | zero => exact fun notice hn => by cases hn
  | succ n ih =>
    have hstep : ∀ notice ∈ (a.step policy s).2.2, notice.subject = .transfer := by
      intro notice
      simp only [step, stepStage]
      repeat' split
      all_goals simp +contextual [Transfer.notice]
    intro notice hn
    rcases List.mem_append.mp hn with hn | hn
    · exact hstep notice hn
    · exact ih _ _ notice hn

namespace Desk

variable {d d' : Desk} {id : String} {s : Status}

theorem noticesOf_proceed (d : Desk) (a : Attempt) (id : String) :
    (d.proceed a).2.noticesOf .payment id = d.noticesOf .payment id := by
  have happend : (d.proceed a).2.noticesOf .payment id = d.noticesOf .payment id ++
      (a.proceed d.options.policy d.store).2.2.filter (Notice.isOf .payment id) :=
    noticesOf_append rfl .payment id
  rw [happend, List.filter_eq_nil_iff.mpr, List.append_nil]
  intro notice hn
  have hsubject := Attempt.subject_steps d.options.policy _ d.store a notice hn
  rw [Notice.isOf_eq_false (by rw [hsubject]; simp)]
  exact Bool.false_ne_true

/-- The payment `id` goes from the status `s` to `t`. It keeps its status and is
not published, or takes one that ranks higher and is published with it. -/
def Takes (d d' : Desk) (id : String) (s t : Status) : Prop :=
  t = s ∧ d'.noticesOf .payment id = d.noticesOf .payment id ∨
    s.InWindow ∧ s < t ∧
      d'.noticesOf .payment id = d.noticesOf .payment id ++ [paymentNotice id t]

theorem takes_same (hs : d.status? id = some s) (hstatus : d'.status? id = d.status? id)
    (hnotices : d'.noticesOf .payment id = d.noticesOf .payment id) :
    ∃ t, d'.status? id = some t ∧ d.Takes d' id s t :=
  ⟨s, hstatus.trans hs, .inl ⟨rfl, hnotices⟩⟩

theorem apply_of_ne (hk : d.store.Keyed) (u : Update) (hne : id ≠ u.paymentId) :
    (d.apply u).2.status? id = d.status? id ∧
      (d.apply u).2.noticesOf .payment id = d.noticesOf .payment id := by
  constructor
  · unfold status?
    rw [store_apply, Store.get?_merge hk, Option.map_map]
    congr 1
    funext q
    show Payment.status (if id = u.paymentId ∧ q.status.InWindow then q.merged u else q) = _
    rw [if_neg fun h => hne h.1]
  · obtain ⟨-, hn⟩ | ⟨p, hp, ⟨-, hn⟩ | ⟨-, hn⟩⟩ := d.apply_cases u
    · exact noticesOf_congr hn .payment id
    · exact noticesOf_congr hn .payment id
    · refine noticesOf_of_ne hn ?_
      rw [Payment.id_merged, hk (Store.payment_eq_ok.mp hp).1]
      exact hne.symm

theorem apply_of_none (u : Update) (hnone : d.store.payments.get? u.paymentId = none) :
    (d.apply u).2.status? u.paymentId = none ∧
      (d.apply u).2.noticesOf .payment u.paymentId = d.noticesOf .payment u.paymentId := by
  obtain ⟨hstore, hn⟩ | ⟨p, hp, -⟩ := d.apply_cases u
  · refine ⟨?_, noticesOf_congr hn .payment _⟩
    unfold status?
    rw [store_apply, hstore, hnone]
    rfl
  · rw [(Store.payment_eq_ok.mp hp).1] at hnone
    cases hnone

theorem apply_self (hk : d.store.Keyed) (u : Update) (hs : d.status? u.paymentId = some s) :
    ∃ t, (d.apply u).2.status? u.paymentId = some t ∧ d.Takes (d.apply u).2 u.paymentId s t := by
  obtain ⟨hstore, hn⟩ | ⟨p, hp, hcases⟩ := d.apply_cases u
  · refine takes_same hs ?_ (noticesOf_congr hn .payment _)
    unfold status?
    rw [store_apply, hstore]
  · obtain ⟨hrow, hread⟩ := Store.payment_eq_ok.mp hp
    have hrow' : (d.apply u).2.store.payments.get? u.paymentId = some (p.merged u) := by
      rw [store_apply, Store.get?_merge hk, hrow, Option.map_some, if_pos ⟨rfl, hread⟩]
    obtain rfl : p.status = s := by
      unfold status? at hs
      rw [hrow] at hs
      exact Option.some.inj hs
    refine ⟨(p.merged u).status, by unfold status?; rw [hrow']; rfl, ?_⟩
    obtain ⟨hstatus, hn⟩ | ⟨hhigher, hn⟩ := hcases
    · exact .inl ⟨hstatus, noticesOf_congr hn .payment _⟩
    · have hnotice : (p.merged u).notice = paymentNotice u.paymentId (p.merged u).status := by
        unfold Payment.notice paymentNotice
        rw [Payment.id_merged, hk hrow]
      refine .inr ⟨hread, hhigher, ?_⟩
      rw [noticesOf_append hn, hnotice, List.filter_cons_of_pos, List.filter_nil]
      simp [Notice.isOf, paymentNotice]

namespace NoticeStep

theorem keyed (hk : d.store.Keyed) (h : d.NoticeStep d') : d'.store.Keyed := by
  cases h with
  | silent hstore hnotices =>
    obtain hsame | ⟨p, -, -, hput⟩ := hstore.payments
    · intro id q hq
      rw [hsame] at hq
      exact hk hq
    · intro id q hq
      rw [hput, Store.get?_putPayment] at hq
      split at hq
      · rename_i hid
        rw [← Option.some.inj hq, hid]
      · exact hk hq
  | merge u => exact keyed_apply hk u
  | proceed a ha =>
    intro id q hq
    have hsame : (d.proceed a).2.store.payments = d.store.payments :=
      Attempt.payments_proceed d.options.policy d.store a
    rw [hsame] at hq
    exact hk hq

theorem of_no_payment (hk : d.store.Keyed) (h : d.NoticeStep d') (hs : d.status? id = none) :
    d'.noticesOf .payment id = d.noticesOf .payment id ∧
      ∀ t, d'.status? id = some t → t = .waiting := by
  have absurd_some : ∀ {d' : Desk} {t}, d'.status? id = d.status? id → d'.status? id = some t →
      t = .waiting := by
    intro d' t hsame ht
    rw [hsame, hs] at ht
    cases ht
  cases h with
  | silent hstore hnotices =>
    refine ⟨noticesOf_congr hnotices .payment id, fun t ht => ?_⟩
    obtain hsame | ⟨p, hnew, hwaits, hput⟩ := hstore.payments
    · exact absurd_some (status?_congr hsame id) ht
    · unfold status? at ht
      rw [hput, Store.get?_putPayment] at ht
      split at ht
      · rw [Option.map_some, hwaits] at ht
        exact (Option.some.inj ht).symm
      · change d.status? id = some t at ht
        rw [hs] at ht
        cases ht
  | proceed a ha =>
    exact ⟨noticesOf_proceed d a id,
      fun t => absurd_some (status?_congr (Attempt.payments_proceed _ d.store a) id)⟩
  | merge u =>
    by_cases hid : id = u.paymentId
    · subst hid
      obtain ⟨hnone, hn⟩ := apply_of_none u (Option.map_eq_none_iff.mp hs)
      exact ⟨hn, fun t => absurd_some (hnone.trans hs.symm)⟩
    · obtain ⟨hstatus, hn⟩ := apply_of_ne hk u hid
      exact ⟨hn, fun t => absurd_some hstatus⟩

theorem of_payment (hk : d.store.Keyed) (h : d.NoticeStep d') (hs : d.status? id = some s) :
    ∃ t, d'.status? id = some t ∧ d.Takes d' id s t := by
  cases h with
  | silent hstore hnotices =>
    refine takes_same hs ?_ (noticesOf_congr hnotices .payment id)
    obtain hsame | ⟨p, hnew, -, hput⟩ := hstore.payments
    · exact status?_congr hsame id
    · have hne : id ≠ p.id := by
        rintro rfl
        unfold status? at hs
        rw [hnew] at hs
        cases hs
      unfold status?
      rw [hput, Store.get?_putPayment, if_neg hne]
  | proceed a ha =>
    exact takes_same hs (status?_congr (Attempt.payments_proceed _ d.store a) id)
      (noticesOf_proceed d a id)
  | merge u =>
    by_cases hid : id = u.paymentId
    · subst hid
      exact apply_self hk u hs
    · obtain ⟨hstatus, hn⟩ := apply_of_ne hk u hid
      exact takes_same hs hstatus hn

end NoticeStep

/-! ### Along a run -/

/-- The statuses that a payment takes along some desks, each once. -/
def statuses (id : String) (ds : List Desk) : List Status :=
  (ds.filterMap (·.status? id)).destutter (· ≠ ·)

/-- A stored payment is published with each status that it takes, and with none
twice. Each but the last reads back, and each ranks higher than the one
before. -/
theorem NoticeSteps.of_payment {ds : List Desk} (h : d.NoticeSteps ds d') (hk : d.store.Keyed)
    (hs : d.status? id = some s) :
    ∃ later, (ds.filterMap (·.status? id)).destutter' (· ≠ ·) s = s :: later ∧
      (s :: later).IsChain (fun s t => s.InWindow ∧ s < t) ∧
      d'.noticesOf .payment id = d.noticesOf .payment id ++ later.map (paymentNotice id) := by
  induction h generalizing s with
  | refl d => exact ⟨[], rfl, .singleton s, by simp⟩
  | cons hb _ ih =>
    obtain ⟨t, ht, hstep⟩ := hb.of_payment hk hs
    obtain ⟨later, hlater, hchain, hnotices⟩ := ih (hb.keyed hk) ht
    rw [List.filterMap_cons_some (f := fun x : Desk => x.status? id) ht]
    obtain ⟨rfl, hn⟩ | ⟨hread, hhigher, hn⟩ := hstep
    · refine ⟨later, ?_, hchain, by rw [hnotices, hn]⟩
      rw [List.destutter'_cons_neg _ (by simp), hlater]
    · have hne : s ≠ t := by
        rintro rfl
        exact Status.lt_iff_not_le.mp hhigher (Status.le_refl s)
      refine ⟨t :: later, ?_, .cons_cons ⟨hread, hhigher⟩ hchain, ?_⟩
      · rw [List.destutter'_cons_pos _ hne, hlater]
      · rw [hnotices, hn, List.append_assoc]
        rfl

theorem NoticeSteps.statuses_eq {ds : List Desk} (h : d.NoticeSteps ds d') (hk : d.store.Keyed)
    (hs : d.status? id = none) :
    ∃ later, (statuses id ds = [] ∧ later = [] ∨ statuses id ds = .waiting :: later) ∧
      (Status.waiting :: later).IsChain (fun s t => s.InWindow ∧ s < t) ∧
      d'.noticesOf .payment id = d.noticesOf .payment id ++ later.map (paymentNotice id) := by
  induction h with
  | refl d => exact ⟨[], .inl ⟨rfl, rfl⟩, .singleton _, by simp⟩
  | @cons d e ds d'' hb hrest ih =>
    obtain ⟨hn, hwaits⟩ := hb.of_no_payment hk hs
    unfold statuses
    cases ht : e.status? id with
    | none =>
      obtain ⟨later, hstatuses, hchain, hnotices⟩ := ih (hb.keyed hk) ht
      rw [List.filterMap_cons_none (f := fun x : Desk => x.status? id) ht]
      exact ⟨later, hstatuses, hchain, by rw [hnotices, hn]⟩
    | some t =>
      obtain rfl := hwaits t ht
      obtain ⟨later, hlater, hchain, hnotices⟩ := hrest.of_payment (hb.keyed hk) ht
      rw [List.filterMap_cons_some (f := fun x : Desk => x.status? id) ht, List.destutter_cons',
        hlater]
      exact ⟨later, .inr rfl, hchain, by rw [hnotices, hn]⟩

end Desk

/-! ### How many there can be -/

namespace Status

/-- The place of a status among the nine that read back; any other count stands
where the closest one does. -/
def place : Status → Nat
  | .waiting => 0
  | .pending => 1
  | .confirming n => 1 + min 6 (max 1 n.toNat)
  | .confirmed => 7
  | .completed => 8
  | .failed => 8

theorem place_le (s : Status) : s.place ≤ 8 := by
  cases s <;> simp [place]
  omega

theorem place_lt {s t : Status} (hs : s.InWindow) (h : s < t) : s.place < t.place := by
  rw [lt_iff] at h
  cases s <;> cases t <;> simp [rank, place, InWindow] at h hs ⊢ <;> omega

/-- Statuses that rank higher and higher are few. -/
theorem length_le_of_chain {s : Status} {later : List Status}
    (h : (s :: later).IsChain (fun s t => s.InWindow ∧ s < t)) : later.length + s.place ≤ 8 := by
  induction later generalizing s with
  | nil => simpa using s.place_le
  | cons t later ih =>
    obtain ⟨⟨hread, hhigher⟩, hrest⟩ := List.isChain_cons_cons.mp h
    have hplace := place_lt hread hhigher
    have hle := ih hrest
    rw [List.length_cons]
    omega

theorem lt_trans {s t u : Status} (h : s < t) (h' : t < u) : s < u := by
  rw [lt_iff] at *
  omega

instance : Trans (fun s t : Status => s < t) (fun s t : Status => s < t) (fun s t => s < t) where
  trans := lt_trans

end Status

namespace Desk

theorem NoticeSteps.notices_start {options : Options} {ds : List Desk} {d : Desk}
    (h : (start options).NoticeSteps ds d) (id : String) :
    d.noticesOf .payment id = (statuses id ds).tail.map (paymentNotice id) ∧
      (statuses id ds).Pairwise (· < ·) ∧ (d.noticesOf .payment id).length ≤ 8 := by
  have hkeyed : (start options).store.Keyed := fun h => by cases h
  have hnone : (start options).status? id = none := rfl
  obtain ⟨later, hstatuses, hchain, hnotices⟩ := h.statuses_eq hkeyed hnone
  have hnotices : d.noticesOf .payment id = later.map (paymentNotice id) := hnotices
  have hfew : later.length ≤ 8 := Status.length_le_of_chain hchain
  have hhigher : (Status.waiting :: later).Pairwise (· < ·) :=
    List.isChain_iff_pairwise.mp (hchain.imp fun _ _ h => h.2)
  rw [hnotices, List.length_map]
  obtain ⟨hnone, rfl⟩ | hsome := hstatuses
  · rw [hnone]
    exact ⟨rfl, .nil, hfew⟩
  · rw [hsome]
    exact ⟨rfl, hhigher, hfew⟩

end Desk
end Clearing
