import Clearing.Proofs.QuietWatches

/-!
# A turn of a live watch

A turn takes a watch from one wait to the next: to the answer of the search, to
that of a look-up, or to its rest; where the node answers at once, several of
these are done in one turn. What is done is told as an account: what the node
has answered, what it is asked, and what the observer is told. A poll is right
when the accounts of its turns, put together, are what `Watch.Poll` says of the
whole; how far it has come in between is what `Watch.Midway` says.
-/

namespace Clearing

def Observer.updates : Observer → List Sighting → List Update
  | .payment id, told => told.map (.ofSighting id)
  | .journal _, _ => []

def Observer.entries : Observer → List Sighting → List (String × Sighting)
  | .payment _, _ => []
  | .journal label, told => told.map fun seen => (label, seen)

namespace Observer

theorem updates_append (o : Observer) (told told' : List Sighting) :
    o.updates (told ++ told') = o.updates told ++ o.updates told' := by
  cases o with
  | payment id => exact List.map_append
  | journal label => rfl

theorem entries_append (o : Observer) (told told' : List Sighting) :
    o.entries (told ++ told') = o.entries told ++ o.entries told' := by
  cases o with
  | payment id => rfl
  | journal label => exact List.map_append

end Observer

namespace Watch

/-! ### Accounts -/

/-- What a watch does over some of its turns. -/
@[ext]
structure Account where
  /-- What its searches were answered. -/
  found : List (Except NodeFault (List String))
  /-- The transactions whose look-up was answered, each with the answer. -/
  answers : List (String × Except NodeFault Int)
  calls : List Call
  told : List Sighting

/-- What is seen in the answers to look-ups: a transaction with the depth that was
answered, and nothing where the answer is a fault. -/
def sightings (answers : List (String × Except NodeFault Int)) : List Sighting :=
  answers.filterMap fun (tx, answer) => answer.toOption.map (Sighting.of tx)

theorem sightings_append (answers answers' : List (String × Except NodeFault Int)) :
    sightings (answers ++ answers') = sightings answers ++ sightings answers' :=
  List.filterMap_append

theorem toList_heard (tx : String) (answer : Except NodeFault Int) :
    (heard tx answer).toList = sightings [(tx, answer)] := by
  cases answer <;> rfl

namespace Account

def none : Account := ⟨[], [], [], []⟩

def call (c : Call) : Account := ⟨[], [], [c], []⟩

def search (answer : Except NodeFault (List String)) : Account := ⟨[answer], [], [], []⟩

def depth (tx : String) (answer : Except NodeFault Int) : Account :=
  ⟨[], [(tx, answer)], [], sightings [(tx, answer)]⟩

instance : Append Account where
  append a b := ⟨a.found ++ b.found, a.answers ++ b.answers, a.calls ++ b.calls, a.told ++ b.told⟩

variable (a b c : Account)

@[simp] theorem found_append : (a ++ b).found = a.found ++ b.found := rfl
@[simp] theorem answers_append : (a ++ b).answers = a.answers ++ b.answers := rfl
@[simp] theorem calls_append : (a ++ b).calls = a.calls ++ b.calls := rfl
@[simp] theorem told_append : (a ++ b).told = a.told ++ b.told := rfl

@[simp] theorem append_none : a ++ none = a := by
  ext1 <;> exact List.append_nil _

theorem append_assoc : a ++ b ++ c = a ++ (b ++ c) := by
  ext1 <;> exact List.append_assoc ..

end Account

variable {w : Watch} {timing : Timing} {a b : Account} {tx : String} {page rest : List String}

def searchCall (timing : Timing) (address : Address) : Call :=
  .search address.text 0 timing.pageSize

/-- What a whole poll comes to, and how long the watch rests after it. -/
inductive Poll (w : Watch) (timing : Timing) : Account → Nat → Prop
  | undecodable {fault} (h : decodeWatched w.address w.network = .error fault) :
      Poll w timing .none timing.backoff
  | unsearched {address fault} (h : decodeWatched w.address w.network = .ok address) :
      Poll w timing ⟨[.error fault], [], [searchCall timing address], []⟩ timing.backoff
  /-- The transaction ids of the page found are looked up in order, each time they
  occur, and what is told is what the answers show. -/
  | read {address page answers} (h : decodeWatched w.address w.network = .ok address)
      (hpage : page.length ≤ timing.pageSize)
      (hanswers : answers.map Prod.fst = page.filter isTxId) :
      Poll w timing ⟨[.ok page], answers,
        searchCall timing address :: (page.filter isTxId).map .lookup, sightings answers⟩
        timing.pollInterval

/-- The watch has found a page and come as far as `rest` of it. -/
inductive Reads (w : Watch) (timing : Timing) (rest : List String) : Account → Prop
  | read {address page answers} (h : decodeWatched w.address w.network = .ok address)
      (hpage : page.length ≤ timing.pageSize)
      (hanswers : page.filter isTxId = answers.map Prod.fst ++ rest.filter isTxId) :
      Reads w timing rest ⟨[.ok page], answers,
        searchCall timing address :: (answers.map Prod.fst).map .lookup, sightings answers⟩

/-- What has been done of a poll when the watch waits. -/
inductive Midway (w : Watch) (timing : Timing) : Stage → Account → Prop
  | begins : Midway w timing .pausing .none
  | searching {address} (h : decodeWatched w.address w.network = .ok address) :
      Midway w timing (.searching address.text) (.call (searchCall timing address))
  | looking {tx : String} {rest : List String} {a : Account} (h : Reads w timing (tx :: rest) a)
      (htx : isTxId tx = true) :
      Midway w timing (.looking tx rest) (a ++ .call (.lookup tx))

/-- Where the watch has come to when it waits for `wait`: it rests after the whole
poll, or it is midway. -/
def Comes (w : Watch) (timing : Timing) (σ : Stage) (wait : Nat) (a : Account) : Prop :=
  (σ = .pausing ∧ w.Poll timing a wait) ∨ (σ ≠ .pausing ∧ w.Midway timing σ a)

namespace Reads

theorem found {address : Address} (h : decodeWatched w.address w.network = .ok address)
    (hpage : page.length ≤ timing.pageSize) :
    w.Reads timing page (.call (searchCall timing address) ++ .search (.ok page)) := by
  have hnone : page.filter isTxId =
      ([] : List (String × Except NodeFault Int)).map Prod.fst ++ page.filter isTxId := rfl
  exact .read h hpage hnone

theorem pass (h : w.Reads timing (tx :: rest) a) (htx : isTxId tx = false) :
    w.Reads timing rest a := by
  cases h with
  | read h hpage hanswers =>
    refine .read h hpage ?_
    rwa [List.filter_cons_of_neg (by simp [htx])] at hanswers

theorem hear (h : w.Reads timing (tx :: rest) a) (htx : isTxId tx = true)
    (answer : Except NodeFault Int) :
    w.Reads timing rest (a ++ .call (.lookup tx) ++ .depth tx answer) := by
  cases h with
  | @read address page answers h hpage hanswers =>
    have hmore : w.Reads timing rest ⟨[.ok page], answers ++ [(tx, answer)],
        searchCall timing address :: ((answers ++ [(tx, answer)]).map Prod.fst).map .lookup,
        sightings (answers ++ [(tx, answer)])⟩ := by
      refine .read h hpage ?_
      rw [hanswers, List.filter_cons_of_pos htx]
      simp
    have hsame : (⟨[.ok page], answers, searchCall timing address ::
        (answers.map Prod.fst).map .lookup, sightings answers⟩ : Account) ++
          .call (.lookup tx) ++ .depth tx answer =
        ⟨[.ok page], answers ++ [(tx, answer)],
          searchCall timing address :: ((answers ++ [(tx, answer)]).map Prod.fst).map .lookup,
          sightings (answers ++ [(tx, answer)])⟩ := by
      ext1 <;> simp [Account.call, Account.depth, sightings_append]
    rw [hsame]
    exact hmore

theorem ask (h : w.Reads timing (tx :: rest) a) (htx : isTxId tx = true) (wait : Nat) :
    w.Comes timing (.looking tx rest) wait (a ++ .call (.lookup tx)) :=
  .inr ⟨nofun, .looking h htx⟩

theorem poll (h : w.Reads timing [] a) : w.Poll timing a timing.pollInterval := by
  cases h with
  | read h hpage hanswers =>
    rw [List.filter_nil, List.append_nil] at hanswers
    rw [← hanswers]
    exact .read h hpage hanswers.symm

end Reads

/-- How many turns a watch has at most until it rests, if the node has answered
each time. -/
def Stage.turns (pageSize : Nat) : Stage → Nat
  | .pausing => pageSize + 2
  | .searching _ => pageSize + 1
  | .looking _ rest => rest.length + 1

end Watch

/-- Until when a watch waits in a task, and for what. -/
def Task.waitOf (w : Watch) (t : Task) : Option (Nat × Watch.Stage) :=
  match t.job with
  | .watch v σ => if v = w then some (t.due, σ) else none
  | _ => none

namespace Task

variable {w : Watch} {σ : Watch.Stage} {t : Task}

theorem waitOf_of_job (h : t.job = .watch w σ) : t.waitOf w = some (t.due, σ) := by
  unfold waitOf
  rw [h]
  exact if_pos rfl

theorem watch?_of_waitOf {x : Nat × Watch.Stage} (h : t.waitOf w = some x) :
    t.job.watch? = some w := by
  unfold waitOf at h
  split at h
  · rename_i v σ hjob
    split at h
    · rename_i hv
      rw [hjob, hv]
      rfl
    · cases h
  · cases h

theorem waitOf_eq_none (h : t.job.watch? ≠ some w) : t.waitOf w = none :=
  Option.eq_none_iff_forall_ne_some.mpr fun _ hx => h (watch?_of_waitOf hx)

end Task

namespace Desk

variable {w : Watch} {σ : Watch.Stage} {a b : Watch.Account} {wait : Nat} {d d' e : Desk}

def waits (d : Desk) (w : Watch) : List (Nat × Watch.Stage) := d.tasks.filterMap (Task.waitOf w)

theorem waits_later (d : Desk) (delay : Nat) (w : Watch) (σ : Watch.Stage) :
    (d.later delay (.watch w σ)).waits w = d.waits w ++ [(d.now + delay, σ)] := by
  unfold waits later
  rw [List.filterMap_append]
  simp [Task.waitOf]

/-! ### What is seen of a watch -/

/-- Between two desks, the calls of an account are begun and the observer of the
watch is told what the account says; and no other call is begun, and no other
observer told. -/
structure Tells (w : Watch) (a : Watch.Account) (d e : Desk) : Prop where
  calls : e.journal.calls = d.journal.calls ++ a.calls
  inbox : e.inbox = d.inbox ++ w.observer.updates a.told
  sightings : e.journal.sightings = d.journal.sightings ++ w.observer.entries a.told

namespace Tells

theorem trans (h : Tells w a d d') (h' : Tells w b d' e) : Tells w (a ++ b) d e where
  calls := by rw [h'.calls, h.calls, List.append_assoc]; rfl
  inbox := by
    rw [h'.inbox, h.inbox, List.append_assoc, ← Observer.updates_append]
    rfl
  sightings := by
    rw [h'.sightings, h.sightings, List.append_assoc, ← Observer.entries_append]
    rfl

theorem still (hjournal : e.journal = d.journal) (hinbox : e.inbox = d.inbox)
    (ha : a.calls = []) (ha' : a.told = []) : Tells w a d e where
  calls := by rw [hjournal, ha, List.append_nil]
  inbox := by
    rw [hinbox, ha']
    cases w.observer <;> exact (List.append_nil _).symm
  sightings := by
    rw [hjournal, ha']
    cases w.observer <;> exact (List.append_nil _).symm

end Tells

/-- A stretch of a turn in which the watch is not yet put off. -/
structure Goes (w : Watch) (a : Watch.Account) (d e : Desk) : Prop extends Tells w a d e where
  now : e.now = d.now
  options : e.options = d.options
  registry : e.registry = d.registry
  stopped : e.stopped = d.stopped
  node : e.node = d.node
  waits : e.waits w = d.waits w

/-- A stretch of a turn at whose end the watch is put off, to wait for something. -/
structure Leg (w : Watch) (a : Watch.Account) (σ : Watch.Stage) (wait : Nat) (d e : Desk) :
    Prop extends Tells w a d e where
  now : e.now = d.now
  waits : e.waits w = d.waits w ++ [(d.now + wait, σ)]

namespace Leg

theorem later (d : Desk) (w : Watch) (σ : Watch.Stage) (wait : Nat) :
    Leg w .none σ wait d (d.later wait (.watch w σ)) where
  toTells := .still rfl rfl rfl rfl
  now := rfl
  waits := waits_later d wait w σ

theorem after (h : Goes w a d d') (h' : Leg w b σ wait d' e) : Leg w (a ++ b) σ wait d e where
  toTells := h.toTells.trans h'.toTells
  now := h'.now.trans h.now
  waits := by rw [h'.waits, h.waits, h.now]

end Leg

theorem goes_noteCall (d : Desk) (w : Watch) (call : Call) :
    Goes w (.call call) d (d.noteCall call) where
  calls := rfl
  inbox := by cases w.observer <;> exact (List.append_nil _).symm
  sightings := by cases w.observer <;> exact (List.append_nil _).symm
  now := rfl
  options := rfl
  registry := rfl
  stopped := rfl
  node := rfl
  waits := rfl

theorem goes_report (hrun : d.stopped = false) (w : Watch) (seen : Sighting) :
    Goes w ⟨[], [], [], [seen]⟩ d (d.report w seen) := by
  cases hobserver : w.observer with
  | journal label =>
    have hreport : d.report w seen = d.noteSighting label seen := by
      unfold report
      rw [hobserver]
    rw [hreport]
    exact {
      calls := (List.append_nil _).symm
      inbox := by rw [hobserver]; exact (List.append_nil _).symm
      sightings := by rw [hobserver]; rfl
      now := rfl
      options := rfl
      registry := rfl
      stopped := rfl
      node := rfl
      waits := rfl }
  | payment id =>
    let taken : Desk := { d with inbox := d.inbox ++ [.ofSighting id seen] }
    have htaken : Goes w ⟨[], [], [], [seen]⟩ d taken := {
      calls := (List.append_nil _).symm
      inbox := by rw [hobserver]; rfl
      sightings := by rw [hobserver]; exact (List.append_nil _).symm
      now := rfl
      options := rfl
      registry := rfl
      stopped := rfl
      node := rfl
      waits := rfl }
    have hsubmit : d.submit (.ofSighting id seen) =
        (.ok (), if !d.inbox.isEmpty then taken else taken.later 0 .merge) :=
      if_neg (by simp [hrun])
    have hreport : d.report w seen = if !d.inbox.isEmpty then taken else taken.later 0 .merge := by
      unfold report
      rw [hobserver]
      exact congrArg Prod.snd hsubmit
    rw [hreport]
    split
    · exact htaken
    -- the task that merges is none of the watch
    · have hwaits : (taken.later 0 .merge).waits w = taken.waits w := by
        unfold waits later
        rw [List.filterMap_append]
        exact List.append_nil _
      exact { htaken with waits := hwaits.trans htaken.waits }

theorem goes_answerLookup (hrun : d.stopped = false) (w : Watch) (tx : String) :
    Goes w (.depth tx (d.node.depth tx)) d (d.answerLookup w tx) := by
  have hanswer : ∀ told, Goes w ⟨[], [], [], told⟩ d (d.answerLookup w tx) →
      Goes w ⟨[], [(tx, d.node.depth tx)], [], told⟩ d (d.answerLookup w tx) :=
    fun _ h => { h with calls := h.calls }
  rw [Watch.Account.depth, ← Watch.toList_heard]
  cases hseen : Watch.heard tx (d.node.depth tx) with
  | none =>
    refine hanswer _ ?_
    rw [answerLookup_of_unheard w hseen]
    exact {
      toTells := .still rfl rfl rfl rfl
      now := rfl
      options := rfl
      registry := rfl
      stopped := rfl
      node := rfl
      waits := rfl }
  | some seen =>
    refine hanswer _ ?_
    rw [answerLookup_of_heard w hseen]
    exact goes_report hrun w seen

/-! ### From one wait to the next -/

theorem pauseWatch_of_live (hlive : d.isCancelled w = false) (time : Nat) :
    d.pauseWatch w time = d.later time (.watch w .pausing) := if_neg (by simp [hlive])

/-- What the node answers at once while a watch goes through a page. -/
def answeredAtOnce (d : Desk) (page : List String) : List (String × Except NodeFault Int) :=
  if d.node.lookupDelay = 0 then (page.filter isTxId).map fun tx => (tx, d.node.depth tx) else []

theorem answeredAtOnce_pass {tx : String} {rest : List String} (d : Desk)
    (htx : isTxId tx = false) : d.answeredAtOnce (tx :: rest) = d.answeredAtOnce rest := by
  unfold answeredAtOnce
  rw [List.filter_cons_of_neg (by simp [htx])]

theorem answeredAtOnce_ask {tx : String} {rest : List String} (hdelay : d.node.lookupDelay = 0)
    (htx : isTxId tx = true) :
    d.answeredAtOnce (tx :: rest) = (tx, d.node.depth tx) :: d.answeredAtOnce rest := by
  unfold answeredAtOnce
  rw [if_pos hdelay, if_pos hdelay, List.filter_cons_of_pos htx, List.map_cons]

/-- A watch that goes through a page is put off at its end, or at the first
look-up that takes time. -/
theorem goThrough_leg (hrun : d.stopped = false) (hlive : d.isCancelled w = false)
    (page : List String) :
    ∃ a σ wait, Leg w a σ wait d (d.goThrough w page) ∧
      a.found = [] ∧ a.answers = d.answeredAtOnce page ∧
      (∀ b, w.Reads d.options.timing page b → w.Comes d.options.timing σ wait (b ++ a)) ∧
      (σ = .pausing ∨ σ.turns d.options.timing.pageSize ≤ page.length) := by
  induction page generalizing d with
  | nil =>
    have hpause : d.goThrough w [] = d.later d.options.timing.pollInterval (.watch w .pausing) :=
      pauseWatch_of_live hlive _
    refine ⟨.none, .pausing, d.options.timing.pollInterval, ?_, rfl, ?_, fun b hb => ?_, .inl rfl⟩
    · rw [hpause]
      exact .later ..
    · unfold answeredAtOnce
      split <;> rfl
    · rw [Watch.Account.append_none]
      exact .inl ⟨rfl, hb.poll⟩
  | cons tx rest ih =>
    by_cases htx : isTxId tx = true
    · have hask : d.goThrough w (tx :: rest) =
          if d.node.lookupDelay = 0 then
            ((d.noteCall (.lookup tx)).answerLookup w tx).goThrough w rest
          else
            (d.noteCall (.lookup tx)).later d.node.lookupDelay (.watch w (.looking tx rest)) := by
        rw [goThrough, hlive]
        simp only [Watch.glance, htx]
        rfl
      have hcall := goes_noteCall d w (.lookup tx)
      rw [hask]
      by_cases hdelay : d.node.lookupDelay = 0
      · have hanswer : Goes w (.depth tx (d.node.depth tx)) (d.noteCall (.lookup tx))
            ((d.noteCall (.lookup tx)).answerLookup w tx) :=
          goes_answerLookup (d := d.noteCall (.lookup tx)) hrun w tx
        generalize (d.noteCall (.lookup tx)).answerLookup w tx = e at hanswer ⊢
        have hoptions : e.options = d.options := hanswer.options
        have hnode : e.node = d.node := hanswer.node
        have hlive' : e.isCancelled w = false := by
          unfold isCancelled
          rw [hanswer.registry]
          exact hlive
        obtain ⟨a, σ, wait, hleg, hfound, hanswers, hcomes, hturns⟩ :=
          ih (hanswer.stopped.trans hrun) hlive'
        rw [hoptions] at hcomes hturns
        rw [if_pos hdelay]
        refine ⟨.call (.lookup tx) ++ (.depth tx (d.node.depth tx) ++ a), σ, wait,
          .after hcall (.after hanswer hleg), ?_, ?_, fun b hb => ?_,
          hturns.imp_right Nat.le_succ_of_le⟩
        · exact hfound
        · rw [answeredAtOnce_ask hdelay htx]
          have hrest : e.answeredAtOnce rest = d.answeredAtOnce rest := by
            unfold answeredAtOnce
            rw [hnode]
          rw [← hrest, ← hanswers]
          rfl
        · rw [← Watch.Account.append_assoc, ← Watch.Account.append_assoc]
          exact hcomes _ (hb.hear htx _)
      · rw [if_neg hdelay]
        refine ⟨.call (.lookup tx) ++ .none, .looking tx rest, d.node.lookupDelay,
          .after hcall (.later ..), rfl, ?_, fun b hb => ?_, .inr (Nat.le_refl _)⟩
        · unfold answeredAtOnce
          rw [if_neg hdelay]
          rfl
        · rw [Watch.Account.append_none]
          exact hb.ask htx _
    · have hbad : isTxId tx = false := Bool.not_eq_true _ ▸ htx
      have hpass : d.goThrough w (tx :: rest) = d.goThrough w rest := by
        rw [goThrough, hlive]
        simp only [Watch.glance, hbad]
        rfl
      obtain ⟨a, σ, wait, hleg, hfound, hanswers, hcomes, hturns⟩ := ih hrun hlive
      rw [hpass]
      refine ⟨a, σ, wait, hleg, hfound, ?_, fun b hb => hcomes b (hb.pass hbad),
        hturns.imp_right Nat.le_succ_of_le⟩
      rw [answeredAtOnce_pass d hbad]
      exact hanswers

def searchAnswer (d : Desk) (address : String) : Except NodeFault (List String) :=
  (d.node.search address 0 d.options.timing.pageSize).1

def pageOf (answer : Except NodeFault (List String)) : List String := answer.toOption.getD []

theorem search_eq_ok {s node : Node.Script} {address : String} {skip count : Nat}
    {page : List String} (h : s.search address skip count = (.ok page, node)) :
    node = s ∧ page.length ≤ count := by
  unfold Node.Script.search at h
  split at h
  · cases h
  · cases h
    exact ⟨rfl, List.length_take_le _ _⟩

theorem Leg.of_node {node : Node.Script} (h : Leg w a σ wait { d with node } e) :
    Leg w a σ wait d e where
  calls := h.calls
  inbox := h.inbox
  sightings := h.sightings
  now := h.now
  waits := h.waits

theorem hearSearch_leg (hrun : d.stopped = false) (hlive : d.isCancelled w = false)
    {address : Address} (haddress : decodeWatched w.address w.network = .ok address) :
    ∃ a σ wait, Leg w a σ wait d (d.hearSearch w address.text) ∧
      a.found = [d.searchAnswer address.text] ∧
      a.answers = d.answeredAtOnce (pageOf (d.searchAnswer address.text)) ∧
      w.Comes d.options.timing σ wait
        (.call (Watch.searchCall d.options.timing address) ++ a) ∧
      (σ = .pausing ∨ σ.turns d.options.timing.pageSize ≤ d.options.timing.pageSize) := by
  unfold hearSearch searchAnswer
  split
  · rename_i fault node hsearch
    rw [hsearch]
    refine ⟨.search (.error fault) ++ .none, .pausing, d.options.timing.backoff, ?_, rfl, ?_, ?_,
      .inl rfl⟩
    · rw [pauseWatch_of_live (d := { d with node }) hlive]
      have hput := Leg.later { d with node } w .pausing d.options.timing.backoff
      exact { hput.of_node with }
    · unfold answeredAtOnce
      split <;> rfl
    · exact .inl ⟨rfl, .unsearched haddress⟩
  · rename_i page node hsearch
    obtain ⟨hnode, hpage⟩ := search_eq_ok hsearch
    rw [hsearch]
    obtain ⟨a, σ, wait, hleg, hfound, hanswers, hcomes, hturns⟩ :=
      goThrough_leg (d := { d with node }) hrun hlive page
    refine ⟨.search (.ok page) ++ a, σ, wait, ?_, ?_, ?_, ?_,
      hturns.imp_right fun h => Nat.le_trans h hpage⟩
    · exact { hleg.of_node with }
    · show .ok page :: a.found = [.ok page]
      rw [hfound]
    · show a.answers = d.answeredAtOnce page
      rw [hanswers]
      unfold answeredAtOnce
      rw [hnode]
    · rw [← Watch.Account.append_assoc]
      exact hcomes _ (.found haddress hpage)

def searchedIn (d : Desk) (w : Watch) : Watch.Stage → Option (Except NodeFault (List String))
  | .pausing =>
    match decodeWatched w.address w.network with
    | .error _ => none
    | .ok address => if d.node.searchDelay = 0 then some (d.searchAnswer address.text) else none
  | .searching address => some (d.searchAnswer address)
  | .looking _ _ => none

def answersIn (d : Desk) (w : Watch) : Watch.Stage → List (String × Except NodeFault Int)
  | .looking tx rest => (tx, d.node.depth tx) :: d.answeredAtOnce rest
  | σ => (d.searchedIn w σ).elim [] fun answer => d.answeredAtOnce (pageOf answer)

theorem answersIn_pausing (d : Desk) (w : Watch) :
    d.answersIn w .pausing =
      (d.searchedIn w .pausing).elim [] fun answer => d.answeredAtOnce (pageOf answer) := rfl

/-- A watch that is taken on is put off again, further on in its poll or at the
end of it. -/
theorem resumeWatch_leg (hrun : d.stopped = false) (hlive : d.isCancelled w = false)
    (hb : w.Midway d.options.timing σ b) :
    ∃ a τ wait, Leg w a τ wait d (d.resumeWatch w σ) ∧
      a.found = (d.searchedIn w σ).toList ∧ a.answers = d.answersIn w σ ∧
      w.Comes d.options.timing τ wait (b ++ a) ∧
      (τ = .pausing ∨ τ.turns d.options.timing.pageSize < σ.turns d.options.timing.pageSize) := by
  cases hb with
  | begins =>
    show ∃ a τ wait, Leg w a τ wait d (d.beginPoll w) ∧ _
    cases haddress : decodeWatched w.address w.network with
    | error fault =>
      have hbegin : d.beginPoll w = d.later d.options.timing.backoff (.watch w .pausing) := by
        unfold beginPoll
        rw [if_neg (by simp [hlive]), haddress]
        exact pauseWatch_of_live hlive _
      have hsearched : d.searchedIn w .pausing = none := by
        unfold searchedIn
        rw [haddress]
      rw [hbegin, answersIn_pausing, hsearched]
      exact ⟨.none, .pausing, _, .later .., rfl, rfl, .inl ⟨rfl, .undecodable haddress⟩, .inl rfl⟩
    | ok address =>
      let d' := d.noteCall (Watch.searchCall d.options.timing address)
      have hcall : Goes w _ d d' := goes_noteCall d w (Watch.searchCall d.options.timing address)
      have hbegin : d.beginPoll w =
          if d.node.searchDelay = 0 then d'.hearSearch w address.text
          else d'.later d.node.searchDelay (.watch w (.searching address.text)) := by
        unfold beginPoll
        rw [if_neg (by simp [hlive]), haddress]
        rfl
      have hsearched : d.searchedIn w .pausing =
          if d.node.searchDelay = 0 then some (d.searchAnswer address.text) else none := by
        unfold searchedIn
        rw [haddress]
      rw [hbegin, answersIn_pausing, hsearched]
      by_cases hdelay : d.node.searchDelay = 0
      · obtain ⟨a, τ, wait, hleg, hfound, hanswers, hcomes, hturns⟩ :=
          hearSearch_leg (d := d') hrun hlive haddress
        rw [if_pos hdelay, if_pos hdelay]
        exact ⟨_, τ, wait, .after hcall hleg, hfound, hanswers, hcomes,
          hturns.imp_right fun h => Nat.lt_succ_of_le (Nat.le_succ_of_le h)⟩
      · rw [if_neg hdelay, if_neg hdelay]
        exact ⟨_, .searching address.text, _, .after hcall (.later ..), rfl, rfl,
          .inr ⟨nofun, .searching haddress⟩, .inr (Nat.lt_succ_self _)⟩
  | searching haddress =>
    obtain ⟨a, τ, wait, hleg, hfound, hanswers, hcomes, hturns⟩ :=
      hearSearch_leg hrun hlive haddress
    exact ⟨a, τ, wait, hleg, hfound, hanswers, hcomes, hturns.imp_right Nat.lt_succ_of_le⟩
  | @looking tx rest b hb htx =>
    have hanswer := goes_answerLookup hrun w tx
    show ∃ a τ wait, Leg w a τ wait d ((d.answerLookup w tx).goThrough w rest) ∧ _
    generalize d.answerLookup w tx = e at hanswer ⊢
    have hoptions : e.options = d.options := hanswer.options
    have hnode : e.node = d.node := hanswer.node
    have hlive' : e.isCancelled w = false := by
      unfold isCancelled
      rw [hanswer.registry]
      exact hlive
    obtain ⟨a, τ, wait, hleg, hfound, hanswers, hcomes, hturns⟩ :=
      goThrough_leg (hanswer.stopped.trans hrun) hlive' rest
    rw [hoptions] at hcomes hturns
    refine ⟨.depth tx (d.node.depth tx) ++ a, τ, wait, .after hanswer hleg, ?_, ?_, ?_,
      hturns.imp_right Nat.lt_succ_of_le⟩
    · exact hfound
    · show (tx, d.node.depth tx) :: a.answers = (tx, d.node.depth tx) :: d.answeredAtOnce rest
      rw [hanswers]
      unfold answeredAtOnce
      rw [hnode]
    · rw [← Watch.Account.append_assoc]
      exact hcomes _ (hb.hear htx _)

/-- What is done in the turn of a watch that waited for `σ`. -/
structure TurnOf (d : Desk) (w : Watch) (σ : Watch.Stage) (a : Watch.Account) (e : Desk) :
    Prop extends Tells w a d e where
  found : a.found = (d.searchedIn w σ).toList
  answers : a.answers = d.answersIn w σ

/-- **A turn of a live watch.** Whatever the node has answered, the watch comes
further in its poll, or to the end of it, and waits for one thing again. -/
theorem turn_of_live (hrun : d.stopped = false) (hlive : d.isCancelled w = false) {t : Task}
    (hjob : t.job = .watch w σ) (hwake : (d.wake t).waits w = [])
    (hb : w.Midway d.options.timing σ b) :
    ∃ a τ wait, d.TurnOf w σ a (d.turn t) ∧
      (d.turn t).waits w = [((d.turn t).now + wait, τ)] ∧
      w.Comes d.options.timing τ wait (b ++ a) ∧
      (τ = .pausing ∨ τ.turns d.options.timing.pageSize < σ.turns d.options.timing.pageSize) := by
  obtain ⟨a, τ, wait, hleg, hfound, hanswers, hcomes, hturns⟩ :=
    resumeWatch_leg (d := d.wake t) hrun hlive hb
  have hturn : d.turn t = (d.wake t).resumeWatch w σ := by
    rw [turn_eq, hjob]
    rfl
  rw [hturn]
  refine ⟨a, τ, wait, ?_, ?_, hcomes, hturns⟩
  · exact ⟨⟨hleg.calls, hleg.inbox, hleg.sightings⟩, hfound, hanswers⟩
  · rw [hleg.waits, hwake, hleg.now]
    rfl

end Desk
end Clearing
