import Clearing.Proofs.Latch

/-!
# Which transaction was final

The node's answer takes its time, and until the claim the link can still be
replaced; the claim does not look at it again. So the funds move on the
transaction that was linked when the attempt began, and the transfer keeps the
one linked last before the claim. From the claim on the link stays.
-/

namespace Clearing

open Attempt

/-! ### Reading the log -/

def Entry.linkOn? (t : Nat) : Entry → Option String
  | .linked t' tx => if t' = t then some tx else none
  | .deed _ _ _ => none

/-- The transaction linked last to `t` in a stretch of the log. -/
def lastLink? (t : Nat) (log : List Entry) : Option String :=
  (log.filterMap (Entry.linkOn? t)).getLast?

theorem lastLink?_append (t : Nat) (log log' : List Entry) :
    lastLink? t (log ++ log') = (lastLink? t log').or (lastLink? t log) := by
  unfold lastLink?
  rw [List.filterMap_append, List.getLast?_append]

theorem lastLink?_append_deed (t i t' : Nat) (d : Option Deed) (log : List Entry) :
    lastLink? t (log ++ (d.map (.deed i t')).toList) = lastLink? t log := by
  rw [lastLink?_append]
  cases d <;> rfl

theorem lastLink?_append_cons (t i t' : Nat) (d : Deed) (log log' : List Entry) :
    lastLink? t (log ++ .deed i t' d :: log') = (lastLink? t log').or (lastLink? t log) := by
  have hcons :
      log ++ .deed i t' d :: log' = (log ++ ((some d).map (.deed i t')).toList) ++ log' := by
    simp
  rw [hcons, lastLink?_append, lastLink?_append_deed]

def Entry.deedBy? (i : Nat) : Entry → Option Deed
  | .deed i' _ d => if i' = i then some d else none
  | .linked _ _ => none

theorem Entry.deedBy?_eq_some {i : Nat} {e : Entry} {d : Deed} (h : e.deedBy? i = some d) :
    ∃ t, e = .deed i t d := by
  cases e with
  | linked t tx => cases h
  | deed i' t d' =>
    by_cases hi : i' = i
    · subst hi
      simp only [deedBy?, if_true, Option.some.injEq] at h
      exact ⟨t, by rw [h]⟩
    · simp [deedBy?, hi] at h

theorem split_toList {log before after : List Entry} {e : Option Entry} {x : Entry}
    (h : log ++ e.toList = before ++ x :: after) :
    (log = before ∧ e = some x ∧ after = []) ∨
    ∃ between, log = before ++ x :: between ∧ after = between ++ e.toList := by
  cases e with
  | none => exact .inr ⟨after, (List.append_nil log).symm.trans h, (List.append_nil after).symm⟩
  | some e =>
    obtain rfl | ⟨between, y, rfl⟩ := List.eq_nil_or_concat after
    · have h := List.append_inj' h rfl
      exact .inl ⟨h.1, congrArg some (List.singleton_inj.mp h.2), rfl⟩
    · have h : log ++ [e] = (before ++ x :: between) ++ [y] := by simpa using h
      have h := List.append_inj' h rfl
      refine .inr ⟨between, h.1, ?_⟩
      rw [List.concat_eq_append, ← h.2]
      rfl

/-! ### The history of an attempt -/

/-- The stages in which an attempt has claimed the transfer, or never will. -/
def Attempt.Stage.isPast : Stage → Bool
  | .opening | .asking _ | .claiming => false
  | _ => true

theorem isPast_whileShallow (policy : Policy) : policy.whileShallow.isPast = true := by
  cases policy <;> rfl

/-- What an attempt has done when it comes to a stage. -/
inductive History : List Deed → Stage → Prop
  | fresh : History [] .opening
  | asking {tx} : History [.opened tx] (.asking tx)
  | final {tx depth} (h : finalDepth ≤ depth) :
      History [.opened tx, .heard tx (.ok depth)] .claiming
  | past {ds σ} (hσ : σ.isPast = true)
      (h : .claimed ∈ ds → ∃ tx depth rest, finalDepth ≤ depth ∧
        ds = .opened tx :: .heard tx (.ok depth) :: .claimed :: rest ∧
        ∀ tx' answer, .heard tx' answer ∉ rest) : History ds σ

def Store.KeepsLinks (s s' : Store) : Prop :=
  ∀ t r, s.transfers.get? t = some r →
    ∃ r', s'.transfers.get? t = some r' ∧ r'.linkedTx = r.linkedTx

theorem Store.KeepsLinks.refl (s : Store) : s.KeepsLinks s := fun _ r hr => ⟨r, hr, rfl⟩

theorem Store.KeepsLinks.link {s s' : Store} (h : s.KeepsLinks s') {t : Nat} {tx : Option String}
    (hlink : ∃ r, s.transfers.get? t = some r ∧ r.linkedTx = tx) :
    ∃ r', s'.transfers.get? t = some r' ∧ r'.linkedTx = tx := by
  obtain ⟨r, hr, hl⟩ := hlink
  obtain ⟨r', hr', hl'⟩ := h t r hr
  exact ⟨r', hr', hl'.trans hl⟩

section Turns

variable {policy : Policy} {s s' : Store} {id : Nat} {σ τ : Stage} {d : Option Deed}

theorem Attempt.Turn.of_past (hσ : σ.isPast = true) (h : Turn policy s id σ d τ s') :
    τ.isPast = true ∧ ∀ d', d = some d' → d' ≠ .claimed ∧ ∀ tx answer, d' ≠ .heard tx answer := by
  cases h with
  | waits | opened | unlinked | claimed => simp [Stage.isPast] at hσ
  | counted _ _ hτ =>
    refine ⟨?_, by simp⟩
    rw [hτ]
    split <;> rfl
  | ended => exact ⟨hσ, by simp⟩
  | missing | late | closed | debited | debitRefused | credited | creditRefused | refunded
  | refundRefused | finished | reported => exact ⟨rfl, by simp⟩

theorem History.turn {ds : List Deed} (hist : History ds σ) (h : Turn policy s id σ d τ s') :
    History (ds ++ d.toList) τ := by
  cases hist with
  | fresh =>
    cases h with
    | missing | late => exact .past rfl (by simp)
    | opened => exact .asking
    | unlinked => exact .past (isPast_whileShallow policy) (by simp)
  | asking =>
    cases h with
    | waits => exact .asking
    | missing | late => exact .past rfl (by simp)
  | @final tx depth hdepth =>
    cases h with
    | missing | late => exact .past rfl (by simp)
    | claimed => exact .past rfl fun _ => ⟨tx, depth, [], hdepth, rfl, by simp⟩
  | past hσ hclaimed =>
    obtain ⟨hτ, hd⟩ := h.of_past hσ
    refine .past hτ fun hmem => ?_
    have hmem : .claimed ∈ ds := by
      rcases List.mem_append.mp hmem with hmem | hmem
      · exact hmem
      · exact absurd rfl (hd _ (Option.mem_toList.mp hmem)).1
    obtain ⟨tx, depth, rest, hdepth, rfl, hrest⟩ := hclaimed hmem
    refine ⟨tx, depth, rest ++ d.toList, hdepth, rfl, fun tx' answer hheard => ?_⟩
    rcases List.mem_append.mp hheard with hheard | hheard
    · exact hrest tx' answer hheard
    · exact (hd _ (Option.mem_toList.mp hheard)).2 tx' answer rfl

theorem History.heard {ds : List Deed} {tx : String} (hist : History ds (.asking tx))
    (policy : Policy) (answer : Except NodeFault Int) :
    History (ds ++ [.heard tx answer]) (policy.decide answer) := by
  cases hist with
  | past hσ _ => simp [Stage.isPast] at hσ
  | asking =>
    have shallow : ∀ {τ : Stage}, τ.isPast = true →
        History ([.opened tx] ++ [.heard tx answer]) τ := fun hτ => .past hτ (by simp)
    unfold Policy.decide
    split
    · split
      · rename_i hdepth
        exact .final hdepth
      · exact shallow (isPast_whileShallow policy)
    · exact shallow (isPast_whileShallow policy)
    · exact shallow rfl

theorem Attempt.Turn.keepsLinks (hs : s.Sound) (h : Turn policy s id σ d τ s') :
    s.KeepsLinks s' := by
  intro t r hr
  by_cases ht : t = id
  · subst ht
    have rewritten : ∀ {q q' : Transfer}, s.transfers.get? t = some q → q'.id = q.id →
        q'.linkedTx = q.linkedTx →
        ∃ r', (s.putTransfer q').transfers.get? t = some r' ∧ r'.linkedTx = r.linkedTx := by
      intro q q' hq hid hlink
      rw [hr] at hq
      cases hq
      exact ⟨q', hs.get?_rewrite hr hid, hlink⟩
    cases h with
    | counted hq _ _ => exact rewritten hq rfl rfl
    | claimed hq _ => exact rewritten hq rfl rfl
    | closed hq _ => exact rewritten hq rfl rfl
    | finished hq => exact rewritten hq rfl rfl
    | debited h => exact ⟨r, by rw [Ledger.transfers_debit h, hr], rfl⟩
    | credited h => exact ⟨r, by rw [Ledger.transfers_credit h, hr], rfl⟩
    | refunded h => exact ⟨r, by rw [Ledger.transfers_credit h, hr], rfl⟩
    | waits | ended | missing | late | opened | unlinked | debitRefused | creditRefused
    | refundRefused | reported => exact ⟨r, hr, rfl⟩
  · exact ⟨r, by rw [h.row_ne hs ht, hr], rfl⟩

theorem Attempt.Turn.linkedTx_of_opened {tx : String}
    (h : Turn policy s id σ (some (.opened tx)) τ s') :
    ∃ r, s'.transfers.get? id = some r ∧ r.linkedTx = some tx := by
  cases h with
  | opened hr _ hl => exact ⟨_, hr, hl⟩

end Turns

/-! ### Every run -/

namespace World

def deedsBy (w : World) (i : Nat) : List Deed := w.log.filterMap (Entry.deedBy? i)

def HeardFinal (w : World) (i t : Nat) (tx : String) : Prop :=
  ∃ depth, .deed i t (.heard tx (.ok depth)) ∈ w.log ∧ finalDepth ≤ depth

/-- The log accounts for the stages of the attempts and for the links. -/
structure Traced (w : World) : Prop where
  known : ∀ {i t : Nat} {d : Deed}, .deed i t d ∈ w.log →
    ∃ a, w.attempts[i]? = some a ∧ a.transfer = t
  history : ∀ {i : Nat} {a : Attempt}, w.attempts[i]? = some a → History (w.deedsBy i) a.stage
  /-- The link that an attempt has read is the one of the row, unless links were
  written since. -/
  link : ∀ {i t : Nat} {tx : String} {before after : List Entry},
    w.log = before ++ .deed i t (.opened tx) :: after →
    ∃ r, w.store.transfers.get? t = some r ∧ r.linkedTx = some ((lastLink? t after).getD tx)
  /-- No link is written after a claim. -/
  frozen : ∀ {i t : Nat} {before after : List Entry},
    w.log = before ++ .deed i t .claimed :: after → lastLink? t after = none

theorem traced_empty : empty.Traced where
  known h := by simp [empty] at h
  history h := by simp [empty] at h
  link h := by simp [empty] at h
  frozen h := by simp [empty] at h

variable {policy : Policy} {w w' : World}

theorem Traced.frame (h : w.Traced) (hlog : w'.log = w.log)
    (hold : ∀ {i : Nat} {a : Attempt}, w.attempts[i]? = some a → w'.attempts[i]? = some a)
    (hnew : ∀ {i : Nat} {a : Attempt}, w'.attempts[i]? = some a →
      w.attempts[i]? = some a ∨ w.attempts[i]? = none ∧ a.stage = .opening)
    (hlinks : w.store.KeepsLinks w'.store) : w'.Traced where
  known hmem := by
    rw [hlog] at hmem
    obtain ⟨a, ha, hat⟩ := h.known hmem
    exact ⟨a, hold ha, hat⟩
  history {i a} ha := by
    have hsame : w'.deedsBy i = w.deedsBy i := by
      unfold deedsBy
      rw [hlog]
    rw [hsame]
    obtain hold | ⟨hnone, hopening⟩ := hnew ha
    · exact h.history hold
    · have hnil : w.deedsBy i = [] := by
        refine List.filterMap_eq_nil_iff.mpr fun e he => ?_
        cases hd : e.deedBy? i with
        | none => rfl
        | some d =>
          obtain ⟨t, rfl⟩ := Entry.deedBy?_eq_some hd
          obtain ⟨b, hb, -⟩ := h.known he
          rw [hnone] at hb
          cases hb
      rw [hnil, hopening]
      exact .fresh
  link heq := by
    rw [hlog] at heq
    exact hlinks.link (h.link heq)
  frozen heq := by
    rw [hlog] at heq
    exact h.frozen heq

theorem deedsBy_goOn (i : Nat) (a : Attempt) (d : Option Deed) (τ : Stage) (store : Store)
    (j : Nat) :
    (w.goOn i a d τ store).deedsBy j = w.deedsBy j ++ if j = i then d.toList else [] := by
  show (w.log ++ (d.map (Entry.deed i a.transfer)).toList).filterMap (Entry.deedBy? j) = _
  rw [List.filterMap_append]
  congr 1
  cases d with
  | none => simp
  | some d =>
    by_cases hj : i = j
    · simp [Entry.deedBy?, hj]
    · simp [Entry.deedBy?, hj, Ne.symm hj]

theorem known_goOn {i j t : Nat} {a b : Attempt} {d : Option Deed} {τ : Stage} {store : Store}
    (ha : w.attempts[i]? = some a) (hb : w.attempts[j]? = some b) (hbt : b.transfer = t) :
    ∃ b', (w.goOn i a d τ store).attempts[j]? = some b' ∧ b'.transfer = t := by
  by_cases hj : j = i
  · subst hj
    rw [ha] at hb
    cases hb
    exact ⟨_, attempts_goOn_self ha, hbt⟩
  · exact ⟨b, attempts_goOn_ne hb hj, hbt⟩

theorem Traced.goOn (h : w.Traced) {i : Nat} {a : Attempt} {d : Option Deed} {τ : Stage}
    {store : Store} (ha : w.attempts[i]? = some a) (hhist : History (w.deedsBy i ++ d.toList) τ)
    (hlinks : w.store.KeepsLinks store)
    (hopened : ∀ {tx : String}, d = some (.opened tx) →
      ∃ r, store.transfers.get? a.transfer = some r ∧ r.linkedTx = some tx) :
    (w.goOn i a d τ store).Traced := by
  have hlog : (w.goOn i a d τ store).log = w.log ++ (d.map (.deed i a.transfer)).toList := rfl
  refine ⟨fun {j t d'} hmem => ?_, fun {j b} hb => ?_, fun {j t tx before after} heq => ?_,
    fun {j t before after} heq => ?_⟩
  · rw [hlog] at hmem
    rcases List.mem_append.mp hmem with hmem | hmem
    · obtain ⟨b, hb, hbt⟩ := h.known hmem
      exact known_goOn ha hb hbt
    · obtain ⟨d', -, hd'⟩ := Option.map_eq_some_iff.mp (Option.mem_toList.mp hmem)
      cases hd'
      exact known_goOn ha ha rfl
  · rw [deedsBy_goOn]
    obtain ⟨rfl, rfl⟩ | ⟨hj, hb⟩ := attempts_goOn hb
    · rw [if_pos rfl]
      exact hhist
    · rw [if_neg hj, List.append_nil]
      exact h.history hb
  · obtain ⟨-, he, rfl⟩ | ⟨between, hsplit, rfl⟩ := split_toList heq
    · obtain ⟨d', rfl, he⟩ := Option.map_eq_some_iff.mp he
      cases he
      exact hopened rfl
    · rw [lastLink?_append_deed]
      exact hlinks.link (h.link hsplit)
  · obtain ⟨-, -, rfl⟩ | ⟨between, hsplit, rfl⟩ := split_toList heq
    · rfl
    · rw [lastLink?_append_deed]
      exact h.frozen hsplit

theorem Inv.processed_of_claimed (hi : w.Inv) {i t : Nat} (hmem : .deed i t .claimed ∈ w.log)
    {r : Transfer} (hr : w.store.transfers.get? t = some r) : r.isProcessed = true := by
  have hdeeds : .claimed ∈ w.deeds t :=
    List.mem_filterMap.mpr ⟨_, hmem, by simp [Entry.deedOn?, Deed.binds]⟩
  rcases hi.latched t with hf | ⟨j, q, σ, htaken⟩
  · rw [hf.deeds] at hdeeds
    cases hdeeds
  · have hq := htaken.row
    rw [hr] at hq
    cases hq
    exact htaken.processed

theorem Traced.relink (h : w.Traced) (hi : w.Inv) {t : Nat} {tx : String} {r : Transfer}
    (hr : w.store.transfers.get? t = some r) (hp : r.isProcessed = false) :
    Traced { w with
      store := w.store.putTransfer { r with linkedTx := some tx }
      log := w.log ++ [.linked t tx] } where
  known hmem := by
    rcases List.mem_append.mp hmem with hmem | hmem
    · exact h.known hmem
    · cases List.mem_singleton.mp hmem
  history {i a} ha := by
    have hsame : (w.log ++ [Entry.linked t tx]).filterMap (Entry.deedBy? i) = w.deedsBy i := by
      rw [List.filterMap_append]
      exact List.append_nil _
    show History ((w.log ++ [Entry.linked t tx]).filterMap (Entry.deedBy? i)) a.stage
    rw [hsame]
    exact h.history ha
  link {i t' tx' before after} heq := by
    obtain ⟨-, he, -⟩ | ⟨between, hsplit, rfl⟩ := split_toList (e := some (.linked t tx)) heq
    · cases he
    · by_cases ht : t' = t
      · subst ht
        refine ⟨_, hi.sound.get?_rewrite hr rfl, ?_⟩
        simp [lastLink?, Entry.linkOn?]
      · obtain ⟨q, hq, hl⟩ := h.link hsplit
        refine ⟨q, ?_, ?_⟩
        · refine (Store.get?_putTransfer ..).trans ((if_neg ?_).trans hq)
          show t' ≠ r.id
          rw [hi.sound.transfer_id hr]
          exact ht
        · rw [hl, lastLink?_append]
          simp [lastLink?, Entry.linkOn?, Ne.symm ht]
  frozen {i t' before after} heq := by
    obtain ⟨-, he, -⟩ | ⟨between, hsplit, rfl⟩ := split_toList (e := some (.linked t tx)) heq
    · cases he
    · rw [lastLink?_append, h.frozen hsplit]
      by_cases ht : t' = t
      · subst ht
        have hclaimed : .deed i t' .claimed ∈ w.log := by simp [hsplit]
        have hprocessed := hi.processed_of_claimed hclaimed hr
        simp [hp] at hprocessed
      · simp [lastLink?, Entry.linkOn?, Ne.symm ht]

theorem traced_step (hi : w.Inv) (h : w.Traced) (e : Event) : (w.step policy e).Traced := by
  have hlinks : (∀ i, e ≠ .act i) → (∀ t tx, e ≠ .link t tx) →
      w.store.KeepsLinks (w.step policy e).store := by
    intro hact hlink t r hr
    obtain hrow | ⟨hnone, -⟩ | ⟨q, tx, he, -⟩ := row_of_other policy hi.sound hact t
    · exact ⟨r, hrow.trans hr, rfl⟩
    · rw [hr] at hnone
      cases hnone
    · exact absurd he (hlink t tx)
  cases e with
  | begin t' =>
    refine h.frame rfl (fun ha => ?_) (fun {i a} ha => ?_) (.refl w.store)
    · exact List.getElem?_append_left (List.getElem?_eq_some_iff.mp ha).1 ▸ ha
    · have ha : (w.attempts ++ [.start t'])[i]? = some a := ha
      rw [List.getElem?_append] at ha
      split at ha
      · exact .inl ha
      · rename_i hi
        rw [List.getElem?_singleton] at ha
        split at ha
        · rw [← Option.some.inj ha]
          exact .inr ⟨List.getElem?_eq_none_iff.mpr (Nat.le_of_not_lt hi), rfl⟩
        · cases ha
  | act i =>
    cases ha : w.attempts[i]? with
    | none =>
      rw [step_act_none policy ha]
      exact h
    | some a =>
      rw [step_act policy ha]
      have hturn := turn_step policy w.store a
      refine h.goOn ha ((h.history ha).turn hturn) (hturn.keepsLinks hi.sound) (fun hd => ?_)
      rw [hd] at hturn
      exact hturn.linkedTx_of_opened
  | answer i depth =>
    obtain hsame | ⟨a, tx, ha, hs, hstep⟩ := step_answer policy w i depth
    · rw [hsame]
      exact h
    · rw [hstep]
      have hhist := h.history ha
      rw [hs] at hhist
      exact h.goOn ha (hhist.heard policy depth) (.refl w.store) (fun hd => by cases hd)
  | ledger op => exact h.frame rfl id .inl (hlinks (by simp) (by simp))
  | create new => exact h.frame rfl id .inl (hlinks (by simp) (by simp))
  | link t' tx =>
    obtain hsame | ⟨r, hr, hp, hstep⟩ := step_link policy w t' tx
    · rw [hsame]
      exact h
    · rw [hstep]
      exact h.relink hi hr hp
  | payments rows => exact h.frame rfl id .inl (.refl w.store)

theorem traced_run (policy : Policy) (events : List Event) :
    (empty.run policy events).Inv ∧ (empty.run policy events).Traced :=
  run_invariant (P := fun w => w.Inv ∧ w.Traced)
    (fun _ e h => ⟨inv_step h.1 e, traced_step h.1 h.2 e⟩) ⟨inv_empty, traced_empty⟩ events

theorem Traced.entry_eq (h : w.Traced) {i : Nat} {a : Attempt} (ha : w.attempts[i]? = some a)
    {e : Entry} {d : Deed} (he : e ∈ w.log) (hd : e.deedBy? i = some d) :
    e = .deed i a.transfer d := by
  obtain ⟨t, rfl⟩ := Entry.deedBy?_eq_some hd
  obtain ⟨b, hb, hbt⟩ := h.known he
  rw [ha] at hb
  cases hb
  rw [hbt]

theorem mem_deedsBy {i t : Nat} {d : Deed} (h : .deed i t d ∈ w.log) : d ∈ w.deedsBy i :=
  List.mem_filterMap.mpr ⟨_, h, by simp [Entry.deedBy?]⟩

/-- Before a claim the attempt has read a link and heard a final depth of that
transaction, and of no other; the link of the transfer is the last one written
before the claim. -/
theorem Traced.of_claimed (h : w.Traced) {i t : Nat} (hmem : .deed i t .claimed ∈ w.log)
    {r : Transfer} (hr : w.store.transfers.get? t = some r) :
    ∃ tx depth before between after,
      w.log = before ++ .deed i t (.opened tx) :: between ++ .deed i t .claimed :: after ∧
      .deed i t (.heard tx (.ok depth)) ∈ between ∧ finalDepth ≤ depth ∧
      r.linkedTx = some ((lastLink? t between).getD tx) ∧
      ∀ tx' answer, .deed i t (.heard tx' answer) ∈ w.log → tx' = tx := by
  obtain ⟨a, ha, rfl⟩ := h.known hmem
  have hclaimed := mem_deedsBy hmem
  obtain ⟨tx, depth, rest, hdepth, hds, hrest⟩ : ∃ tx depth rest, finalDepth ≤ depth ∧
      w.deedsBy i = .opened tx :: .heard tx (.ok depth) :: .claimed :: rest ∧
      ∀ tx' answer, .heard tx' answer ∉ rest := by
    have hhist := h.history ha
    generalize w.deedsBy i = ds at hhist hclaimed
    generalize a.stage = σ at hhist
    cases hhist with
    | fresh | asking | final => simp at hclaimed
    | past _ hpast => exact hpast hclaimed
  -- the three deeds stand in the log in this order
  obtain ⟨before, e₁, log₁, hlog, -, he₁, hds₁⟩ := List.filterMap_eq_cons_iff.mp hds
  obtain ⟨early, e₂, log₂, hlog₁, -, he₂, hds₂⟩ := List.filterMap_eq_cons_iff.mp hds₁
  obtain ⟨late, e₃, after, hlog₂, -, he₃, -⟩ := List.filterMap_eq_cons_iff.mp hds₂
  have hsplit : w.log = before ++ e₁ :: (early ++ e₂ :: (late ++ e₃ :: after)) := by
    rw [hlog, hlog₁, hlog₂]
  obtain rfl := h.entry_eq ha (by simp [hsplit]) he₁
  obtain rfl := h.entry_eq ha (by simp [hsplit]) he₂
  obtain rfl := h.entry_eq ha (by simp [hsplit]) he₃
  have hwhole : w.log = before ++ .deed i a.transfer (.opened tx) ::
      (early ++ .deed i a.transfer (.heard tx (.ok depth)) :: late) ++
        .deed i a.transfer .claimed :: after := by
    rw [hsplit]
    simp
  refine ⟨tx, depth, before, _, after, hwhole, by simp, hdepth, ?_, fun tx' answer hheard => ?_⟩
  · have hread : w.log = before ++ .deed i a.transfer (.opened tx) ::
        ((early ++ .deed i a.transfer (.heard tx (.ok depth)) :: late) ++
          .deed i a.transfer .claimed :: after) := by
      rw [hsplit]
      simp
    obtain ⟨q, hq, hl⟩ := h.link hread
    rw [hr] at hq
    cases hq
    rw [hl, lastLink?_append_cons, h.frozen hwhole, Option.none_or]
  · have hheard := mem_deedsBy hheard
    rw [hds] at hheard
    have hnot := hrest tx' answer
    simp only [List.mem_cons, reduceCtorEq, false_or, hnot, or_false, Deed.heard.injEq] at hheard
    exact hheard.1

theorem Inv.claimed_of_completed (hi : w.Inv) {t : Nat} {r : Transfer}
    (hr : w.store.transfers.get? t = some r) (hs : r.status = .completed) :
    ∃ i, .deed i t .claimed ∈ w.log := by
  obtain ⟨i, σ, htaken⟩ :=
    (hi.latched t).taken hr ((hi.latched t).processed hr (by simp [hs]))
  have hclaimed : .claimed ∈ w.deeds t := by
    have hheld := htaken.held
    generalize w.deeds t = ds at hheld
    cases hheld with
    | moving hs' _ => simp [hs] at hs'
    | settled _ hm => cases hm <;> simp
    | closed hs' => simp [hs] at hs'
    | reported hs' => simp [hs] at hs'
  obtain ⟨e, he, hon⟩ := List.mem_filterMap.mp hclaimed
  cases e with
  | linked t' tx => cases hon
  | deed j t' d =>
    simp only [Entry.deedOn?] at hon
    split at hon
    · rename_i ht
      cases hon
      exact ⟨j, ht.1 ▸ he⟩
    · cases hon

/-- **Funds move on the transaction that was linked when the attempt began.** In
every run, a completed transfer was claimed by an attempt that had read a link to
`tx` and was told a final depth of it; the link now is the one that was written last
between this reading and the claim, or `tx`. So some attempt was told a final depth
of the transaction that is linked now exactly if the link is still `tx`, or another
attempt happened to be told one. -/
theorem final_when_claimed (policy : Policy) (events : List Event) (t : Nat) (r : Transfer)
    (linked : String) (hr : (empty.run policy events).store.transfers.get? t = some r)
    (hs : r.status = .completed) (hl : r.linkedTx = some linked) :
    let w := empty.run policy events
    ∃ i tx depth before between after,
      w.log = before ++ .deed i t (.opened tx) :: between ++ .deed i t .claimed :: after ∧
      .deed i t (.heard tx (.ok depth)) ∈ between ∧ finalDepth ≤ depth ∧
      linked = (lastLink? t between).getD tx ∧
      ((∃ j, w.HeardFinal j t linked) ↔
        (∀ other, lastLink? t between = some other → other = tx) ∨
          ∃ j, j ≠ i ∧ w.HeardFinal j t linked) := by
  intro w
  obtain ⟨hi, htraced⟩ : w.Inv ∧ w.Traced := traced_run policy events
  obtain ⟨i, hclaimed⟩ := hi.claimed_of_completed hr hs
  obtain ⟨tx, depth, before, between, after, hlog, hheard, hdepth, hlink, honly⟩ :=
    htraced.of_claimed hclaimed hr
  have hlinked : linked = (lastLink? t between).getD tx := by
    rw [hl] at hlink
    exact Option.some.inj hlink
  refine ⟨i, tx, depth, before, between, after, hlog, hheard, hdepth, hlinked, ?_, ?_⟩
  · rintro ⟨j, hj⟩
    by_cases hji : j = i
    · -- the attempt that claimed was told of `tx` only
      subst hji
      obtain ⟨depth', hmem, -⟩ := hj
      have hsame : linked = tx := honly linked _ hmem
      refine .inl fun other hother => ?_
      rw [hother] at hlinked
      rw [← hsame, hlinked]
      rfl
    · exact .inr ⟨j, hji, hj⟩
  · rintro (hkept | ⟨j, -, hj⟩)
    · have hsame : linked = tx := by
        cases hlast : lastLink? t between with
        | none =>
          rw [hlast] at hlinked
          exact hlinked
        | some other =>
          rw [hlast] at hlinked
          rw [hlinked]
          exact hkept other hlast
      subst hsame
      refine ⟨i, depth, ?_, hdepth⟩
      show _ ∈ w.log
      rw [hlog]
      exact List.mem_append_left _ (List.mem_append_right _ (List.mem_cons_of_mem _ hheard))
    · exact ⟨j, hj⟩

/-- The link is replaced while the node is asked: the transfer is completed with a
link to a transaction of which nobody was told a final depth. -/
theorem completed_on_replaced_link :
    ¬ ∀ (policy : Policy) (events : List Event) (t : Nat) (r : Transfer) (linked : String),
      (empty.run policy events).store.transfers.get? t = some r → r.status = .completed →
      r.linkedTx = some linked → ∃ i, (empty.run policy events).HeardFinal i t linked := by
  intro h
  obtain ⟨i, depth, hmem, -⟩ :=
    h .failFast (twoWallets ++ settledBy 0 [.link 1 secondTx]) 1 _ secondTx rfl rfl rfl
  have hlog : (empty.run .failFast (twoWallets ++ settledBy 0 [.link 1 secondTx])).log =
      [.deed 0 1 (.opened firstTx), .linked 1 secondTx, .deed 0 1 (.heard firstTx (.ok 6)),
        .deed 0 1 .claimed, .deed 0 1 (.debited 1 25), .deed 0 1 (.credited 2 25),
        .deed 0 1 (.settled .completed)] := rfl
  have hother : secondTx ≠ firstTx := by decide
  rw [hlog] at hmem
  simp [hother] at hmem

/-- In that run the attempt was told a final depth of some transaction. -/
theorem final_when_claimed_replaced :
    ∃ i tx,
      (empty.run .failFast (twoWallets ++ settledBy 0 [.link 1 secondTx])).HeardFinal i 1 tx := by
  obtain ⟨i, tx, depth, before, between, after, hlog, hheard, hdepth, -, -⟩ :=
    final_when_claimed .failFast (twoWallets ++ settledBy 0 [.link 1 secondTx]) 1 _ secondTx
      rfl rfl rfl
  refine ⟨i, tx, depth, ?_, hdepth⟩
  rw [hlog]
  exact List.mem_append_left _ (List.mem_append_right _ (List.mem_cons_of_mem _ hheard))

end World
end Clearing
