import Clearing.Config
import Clearing.Proofs.StatusGrammar

/-!
# Which environments configure the service

Each piece of the reading says which variables it looks at: it succeeds if none
of them offends, and otherwise its fault is about the first that does. Put
together in order, the pieces say the same of the whole configuration. A
variable that is never looked at does not offend: how to retry transfers is of
no account where they are not retried.
-/

namespace Clearing

def Text.NumberIn (least most : Nat) (s : String) : Prop :=
  ∃ n, Text.Unsigned (Text.trim s).toList n ∧ least ≤ n ∧ n ≤ most

section NumberIn

variable {most : Nat} {s : String}

theorem Text.numberIn_iff_of_ok {n : Nat} (h : Text.natural? most (Text.trim s).toList = .ok n)
    (least : Nat) : Text.NumberIn least most s ↔ least ≤ n := by
  constructor
  · rintro ⟨m, hm, hleast, hmost⟩
    have hsame := h.symm.trans (Text.natural?_eq_ok.mpr ⟨hm, hmost⟩)
    cases hsame
    exact hleast
  · intro hleast
    obtain ⟨hn, hmost⟩ := Text.natural?_eq_ok.mp h
    exact ⟨n, hn, hleast, hmost⟩

theorem Text.not_numberIn_of_error {e : Text.IntegerFault}
    (h : Text.natural? most (Text.trim s).toList = .error e) (least : Nat) :
    ¬ Text.NumberIn least most s := by
  rintro ⟨n, hn, -, hmost⟩
  rw [Text.natural?_eq_ok.mpr ⟨hn, hmost⟩] at h
  cases h

end NumberIn

namespace Variable

/-- What a variable may be set to. -/
def Admits (value : String) : Variable → Prop
  | .pollInterval => Text.NumberIn 1 (UInt64.size - 1) value
  | .retryBackoff => Text.NumberIn 1 (UInt64.size - 1) value
  | .retryInterval => Text.NumberIn 1 (UInt64.size - 1) value
  | .retryLimit => Text.NumberIn 0 (UInt32.size - 1) value
  | .port => Text.NumberIn 0 (UInt16.size - 1) value
  | .transferPolicy => Text.trim value = "retry" ∨ Text.trim value = "fail_fast"
  | _ => True

/-- The variables that can be at fault, in the order in which they are looked at. -/
def checked : List Variable :=
  [.webhookSecret, .pollInterval, .retryBackoff, .transferPolicy, .retryInterval, .retryLimit,
    .port]

def IsForRetries (var : Variable) : Prop := var = .retryInterval ∨ var = .retryLimit

end Variable

theorem ConfigFault.message_names (fault : ConfigFault) :
    ∃ before after, fault.message = before ++ fault.variable.name ++ after := by
  cases fault with
  | missing var =>
    exact ⟨"", " must be set", congrArg (· ++ " must be set") String.empty_append.symm⟩
  | invalid var value reason =>
    exact ⟨"invalid value " ++ Text.quote value ++ " for ", ": " ++ reason, String.append_assoc ..⟩

namespace Environment

variable {env : Environment} {var : Variable} {vars vars' : List Variable} {limit : Nat}

/-- A secret that is not set, or another variable that is set to what it may not
be. -/
def Faulty (env : Environment) (var : Variable) : Prop :=
  match env.get var with
  | none => var = .webhookSecret
  | some value => ¬ var.Admits value

def FailsFast (env : Environment) : Prop :=
  (env.get .transferPolicy).map Text.trim = some "fail_fast"

/-- A variable is faulty, and it is looked at. -/
def Offends (env : Environment) (var : Variable) : Prop :=
  env.Faulty var ∧ ¬ (env.FailsFast ∧ var.IsForRetries)

theorem faulty_of_unset (h : env.get var = none) : env.Faulty var ↔ var = .webhookSecret := by
  unfold Faulty
  rw [h]

theorem faulty_of_set {value : String} (h : env.get var = some value) :
    env.Faulty var ↔ ¬ var.Admits value := by
  unfold Faulty
  rw [h]

/-! ### One piece of the reading -/

/-- A piece of the reading that looks at some variables, in order: it succeeds if
none of them offends, and otherwise its fault is about the first that does. -/
def Looks {α : Type} (env : Environment) (vars : List Variable) (r : Except ConfigFault α) : Prop :=
  match r with
  | .ok _ => ∀ var ∈ vars, ¬ env.Offends var
  | .error fault => env.Offends fault.variable ∧
      ∃ before after, vars = before ++ fault.variable :: after ∧
        ∀ var ∈ before, ¬ env.Offends var

namespace Looks

variable {α β : Type}

theorem pure (a : α) : env.Looks [] (.ok a) := fun _ h => by cases h

theorem fine (a : α) (h : ¬ env.Offends var) : env.Looks [var] (.ok a : Except ConfigFault α) :=
  fun v hv => by rwa [List.mem_singleton.mp hv]

theorem fault {f : ConfigFault} (h : env.Offends f.variable) :
    env.Looks [f.variable] (.error f : Except ConfigFault α) :=
  ⟨h, [], [], rfl, fun v hv => by cases hv⟩

theorem bind {r : Except ConfigFault α} {next : α → Except ConfigFault β} (h : env.Looks vars r)
    (hnext : ∀ a, env.Looks vars' (next a)) : env.Looks (vars ++ vars') (r >>= next) := by
  cases r with
  | error f =>
    obtain ⟨hoffends, before, after, hvars, hbefore⟩ := h
    exact ⟨hoffends, before, after ++ vars', by rw [hvars]; simp, hbefore⟩
  | ok a =>
    have hrest := hnext a
    show env.Looks (vars ++ vars') (next a)
    cases hb : next a with
    | ok b =>
      rw [hb] at hrest
      intro v hv
      rcases List.mem_append.mp hv with hv | hv
      · exact h v hv
      · exact hrest v hv
    | error f =>
      rw [hb] at hrest
      obtain ⟨hoffends, before, after, hvars, hbefore⟩ := hrest
      refine ⟨hoffends, vars ++ before, after, by rw [hvars]; simp, fun v hv => ?_⟩
      rcases List.mem_append.mp hv with hv | hv
      · exact h v hv
      · exact hbefore v hv

end Looks

/-! ### Each variable -/

theorem offends_secret : env.Offends .webhookSecret ↔ env.get .webhookSecret = none := by
  have hneeded : ¬ (env.FailsFast ∧ Variable.webhookSecret.IsForRetries) := by
    rintro ⟨-, h | h⟩ <;> cases h
  unfold Offends Faulty
  cases env.get .webhookSecret with
  | none => simp [hneeded]
  | some secret => simp [Variable.Admits]

theorem looks_number (var : Variable) (hvar : var ≠ .webhookSecret)
    (hadmits : ∀ value, var.Admits value ↔ Text.NumberIn 0 limit value)
    (hneeded : ¬ (env.FailsFast ∧ var.IsForRetries)) :
    env.Looks [var] (env.number var limit) := by
  unfold number
  cases h : env.get var with
  | none => exact .fine none fun hoffends => hvar ((faulty_of_unset h).mp hoffends.1)
  | some raw =>
    have hfaulty := (faulty_of_set h).trans (not_congr (hadmits raw))
    simp only
    rw [← Text.toList_trim]
    cases hread : Text.natural? limit (Text.trim raw).toList with
    | error e => exact .fault ⟨hfaulty.mpr (Text.not_numberIn_of_error hread 0), hneeded⟩
    | ok n =>
      have hin := (Text.numberIn_iff_of_ok hread 0).mpr (Nat.zero_le n)
      exact .fine (some n) fun hoffends => hfaulty.mp hoffends.1 hin

theorem looks_seconds (var : Variable) (hvar : var ≠ .webhookSecret)
    (hadmits : ∀ value, var.Admits value ↔ Text.NumberIn 1 (UInt64.size - 1) value)
    (hneeded : ¬ (env.FailsFast ∧ var.IsForRetries)) :
    env.Looks [var] (env.seconds var) := by
  unfold seconds number
  cases h : env.get var with
  | none => exact .fine none fun hoffends => hvar ((faulty_of_unset h).mp hoffends.1)
  | some raw =>
    have hfaulty := (faulty_of_set h).trans (not_congr (hadmits raw))
    simp only
    rw [← Text.toList_trim]
    cases hread : Text.natural? (UInt64.size - 1) (Text.trim raw).toList with
    | error e => exact .fault ⟨hfaulty.mpr (Text.not_numberIn_of_error hread 1), hneeded⟩
    | ok n =>
      have hin := Text.numberIn_iff_of_ok hread 1
      cases n with
      | zero => exact .fault ⟨hfaulty.mpr fun h => absurd (hin.mp h) (by decide), hneeded⟩
      | succ n =>
        exact .fine (some (n + 1)) fun hoffends =>
          hfaulty.mp hoffends.1 (hin.mpr (Nat.succ_pos n))

theorem looks_retrying (h : ¬ env.FailsFast) :
    env.Looks [.retryInterval, .retryLimit] (policy.retrying env) := by
  have hneeded : ∀ var : Variable, ¬ (env.FailsFast ∧ var.IsForRetries) := fun _ hvar => h hvar.1
  exact (looks_seconds .retryInterval nofun (fun _ => Iff.rfl) (hneeded _)).bind fun interval =>
    (looks_number .retryLimit nofun (fun _ => Iff.rfl) (hneeded _)).bind fun limit => .pure _

theorem looks_policy (env : Environment) :
    env.Looks [.transferPolicy, .retryInterval, .retryLimit] env.policy := by
  have hneeded : ¬ (env.FailsFast ∧ Variable.transferPolicy.IsForRetries) := by
    rintro ⟨-, h | h⟩ <;> cases h
  unfold policy
  cases h : env.get .transferPolicy with
  | none =>
    have hslow : ¬ env.FailsFast := by
      unfold FailsFast
      rw [h]
      exact nofun
    have hfine : ¬ env.Offends .transferPolicy := fun hoffends => by
      cases (faulty_of_unset h).mp hoffends.1
    exact (Looks.fine () hfine).bind fun _ => looks_retrying hslow
  | some value =>
    have hfaulty := faulty_of_set h
    have hfast : env.FailsFast ↔ Text.trim value = "fail_fast" := by
      unfold FailsFast
      rw [h, Option.map_some, Option.some.injEq]
    simp only [Option.map_some]
    split
    · rename_i hname
      have hname := Option.some.inj hname
      intro var hvar hoffends
      rcases List.mem_cons.mp hvar with rfl | hvar
      · exact hfaulty.mp hoffends.1 (.inr hname)
      · refine hoffends.2 ⟨hfast.mpr hname, ?_⟩
        simpa [Variable.IsForRetries] using hvar
    · rename_i other hother hname
      have hname := Option.some.inj hname
      have hslow : ¬ env.FailsFast := fun hyes =>
        hother (hname.symm.trans (hfast.mp hyes))
      split
      · rename_i hretry
        have hfine : ¬ env.Offends .transferPolicy := fun hoffends =>
          hfaulty.mp hoffends.1 (.inl (hname.trans hretry))
        exact (Looks.fine () hfine).bind fun _ => looks_retrying hslow
      · rename_i hretry
        have hoffends : env.Offends .transferPolicy := by
          refine ⟨hfaulty.mpr ?_, hneeded⟩
          rintro (hadmits | hadmits)
          · exact hretry (hname.symm.trans hadmits)
          · exact hslow (hfast.mpr hadmits)
        exact (Looks.fault hoffends).bind fun _ : Unit => looks_retrying hslow
    · rename_i hnone
      cases hnone

/-- **The whole configuration** looks at its variables in order. -/
theorem looks_load (env : Environment) : env.Looks Variable.checked (Config.load env) := by
  have hneeded : ∀ var : Variable, var ≠ .retryInterval → var ≠ .retryLimit →
      ¬ (env.FailsFast ∧ var.IsForRetries) :=
    fun var hinterval hlimit h => h.2.elim hinterval hlimit
  have hpoll := hneeded .pollInterval nofun nofun
  have hbackoff := hneeded .retryBackoff nofun nofun
  have hport := hneeded .port nofun nofun
  have hrest := fun config : _ → _ → _ → _ → Config =>
    (looks_seconds .pollInterval nofun (fun _ => Iff.rfl) hpoll).bind fun poll =>
    (looks_seconds .retryBackoff nofun (fun _ => Iff.rfl) hbackoff).bind fun backoff =>
    (looks_policy env).bind fun policy =>
    (looks_number .port nofun (fun _ => Iff.rfl) hport).bind fun port =>
    .pure (config poll backoff policy port)
  unfold Config.load
  cases h : env.get .webhookSecret with
  | none => exact (Looks.fault (offends_secret.mpr h)).bind fun secret => hrest _
  | some secret =>
    have hfine : ¬ env.Offends .webhookSecret := fun hoffends => by
      rw [offends_secret.mp hoffends] at h
      cases h
    exact (Looks.fine secret hfine).bind fun secret => hrest _

theorem mem_checked_of_offends (h : env.Offends var) : var ∈ Variable.checked := by
  have hchecked : var ∈ Variable.checked ∨ (var ≠ .webhookSecret ∧ ∀ value, var.Admits value) := by
    cases var <;> simp [Variable.checked, Variable.Admits]
  rcases hchecked with hmem | ⟨hsecret, hadmits⟩
  · exact hmem
  · cases hget : env.get var with
    | none => exact absurd ((faulty_of_unset hget).mp h.1) hsecret
    | some value => exact absurd (hadmits value) ((faulty_of_set hget).mp h.1)

/-- **The configuration is read** exactly if no variable offends: the secret is set,
a policy that is set is a known one, and a number that is set is one of its range,
those for retries only where transfers are retried. Otherwise the fault is about the
first variable that offends, and tells its name. -/
theorem load_exact (env : Environment) :
    ((∃ c, Config.load env = .ok c) ↔ ∀ var, ¬ env.Offends var) ∧
    ∀ fault, Config.load env = .error fault →
      env.Offends fault.variable ∧
      (∃ before after, Variable.checked = before ++ fault.variable :: after ∧
        ∀ var ∈ before, ¬ env.Offends var) ∧
      ∃ before after, fault.message = before ++ fault.variable.name ++ after := by
  have hlooks := looks_load env
  cases hload : Config.load env with
  | ok c =>
    rw [hload] at hlooks
    have hnone : ∀ var, ¬ env.Offends var := fun var h => hlooks var (mem_checked_of_offends h) h
    exact ⟨iff_of_true ⟨c, rfl⟩ hnone, fun fault h => by cases h⟩
  | error f =>
    rw [hload] at hlooks
    obtain ⟨hoffends, hfirst⟩ := hlooks
    refine ⟨iff_of_false ?_ fun hnone => hnone _ hoffends, fun fault h => ?_⟩
    · rintro ⟨c, h⟩
      cases h
    · cases h
      exact ⟨hoffends, hfirst, f.message_names⟩

/-- Transfers are not retried, and how long to wait between is no number. -/
def idleInterval : Environment := fun name =>
  if name = "WEBHOOK_SECRET" then some "s"
  else if name = "TRANSFER_CONFIRMATION_POLICY" then some "fail_fast"
  else if name = "TRANSFER_RETRY_INTERVAL_SECS" then some "soon"
  else none

/-- It is read all the same. -/
theorem read_with_idle_fault :
    ¬ ∀ env : Environment, (∃ c, Config.load env = .ok c) ↔ ∀ var, ¬ env.Faulty var := by
  intro h
  have hread : ∃ c, Config.load idleInterval = .ok c := ⟨_, rfl⟩
  have hset : idleInterval.get .retryInterval = some "soon" := by decide
  have hno : Text.natural? (UInt64.size - 1) (Text.trim "soon").toList = .error .invalidDigit := by
    decide
  exact (h idleInterval).mp hread .retryInterval
    ((faulty_of_set hset).mpr (Text.not_numberIn_of_error hno 1))

end Environment
end Clearing
