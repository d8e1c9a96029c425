import Clearing.Proofs.WalletCalls

/-!
# One default wallet at most

Which wallet is the default of a user for a currency is said twice: by the flag
of the wallet and by an index. Between the two writes of a call they disagree on
one wallet, the one that is written; `AgreesOn` says of the others that a flag
goes where the index points.
-/

namespace Clearing.Store

/-! ### The keys of the slots -/

theorem defaultKey_inj {owner owner' : Nat} {currency currency' : String} :
    defaultKey owner currency = defaultKey owner' currency' ↔
      owner = owner' ∧ Text.upper currency = Text.upper currency' := by
  refine ⟨fun h => ?_, fun ⟨howner, hcurrency⟩ => by unfold defaultKey; rw [howner, hcurrency]⟩
  have hlists : Nat.toDigits 10 owner ++ '|' :: (Text.upper currency).toList =
      Nat.toDigits 10 owner' ++ '|' :: (Text.upper currency').toList := by
    have hchars := congrArg String.toList h
    have hbar : "|".toList = ['|'] := rfl
    unfold defaultKey at hchars
    simpa only [String.toList_append, Nat.toString_eq_ofList_toDigits, String.toList_ofList,
      List.append_assoc, hbar, List.cons_append, List.nil_append] using hchars
  -- the bar is no digit, so the digits are what stands before the first bar
  have hbefore : ∀ (n : Nat) (rest : List Char),
      (Nat.toDigits 10 n ++ '|' :: rest).takeWhile (· != '|') = Nat.toDigits 10 n := by
    intro n rest
    have hdigits : ∀ c ∈ Nat.toDigits 10 n, (c != '|') = true := by
      intro c hc
      have hdigit := Nat.isDigit_of_mem_toDigits (by decide) (by decide) hc
      rw [bne_iff_ne]
      rintro rfl
      exact absurd hdigit (by decide)
    rw [List.takeWhile_append_of_pos hdigits, List.takeWhile_cons_of_neg (by decide),
      List.append_nil]
  have hdigits : Nat.toDigits 10 owner = Nat.toDigits 10 owner' := by
    rw [← hbefore owner, hlists, hbefore owner']
  have howner : owner = owner' := by
    rw [← Nat.ofDigitChars_ten_toDigits (n := owner), hdigits, Nat.ofDigitChars_ten_toDigits]
  rw [hdigits] at hlists
  have hrest := (List.cons.inj (List.append_cancel_left hlists)).2
  exact ⟨howner, String.toList_inj.mp hrest⟩

/-! ### Flags and index -/

/-- Every wallet stands under its own number, which was given out, and for the
wallets in `P` the flag and the index say the same. -/
structure AgreesOn (s : Store) (P : Nat → Prop) : Prop where
  wallet_id : ∀ {k w}, s.wallets.get? k = some w → w.id = k
  wallet_le : ∀ {k w}, s.wallets.get? k = some w → k ≤ s.lastWallet
  flagged : ∀ {k w}, P k → s.wallets.get? k = some w →
    (w.isDefault = true ↔ s.defaults.get? (walletKey w) = some k)
  entry : ∀ {key k}, P k → s.defaults.get? key = some k →
    ∃ w, s.wallets.get? k = some w ∧ walletKey w = key

abbrev Agrees (s : Store) : Prop := s.AgreesOn fun _ => True

theorem agrees_empty : empty.Agrees where
  wallet_id h := by simp [empty] at h
  wallet_le h := by simp [empty] at h
  flagged _ h := by simp [empty] at h
  entry _ h := by simp [empty] at h

variable {s s' : Store} {id : Nat} {w v : Wallet} {P Q : Nat → Prop}

namespace AgreesOn

theorem mono (h : s.AgreesOn P) (hPQ : ∀ k, Q k → P k) : s.AgreesOn Q :=
  ⟨h.wallet_id, h.wallet_le, fun hk => h.flagged (hPQ _ hk), fun hk => h.entry (hPQ _ hk)⟩

theorem key_eq (h : s.AgreesOn P) (hP : P id) (hw : s.wallets.get? id = some w) {key : String}
    (hentry : s.defaults.get? key = some id) : walletKey w = key := by
  obtain ⟨u, hu, hkey⟩ := h.entry hP hentry
  rw [hw] at hu
  cases hu
  exact hkey

theorem congr (h : s.AgreesOn P) (hw : s'.wallets = s.wallets) (hd : s'.defaults = s.defaults)
    (hl : s.lastWallet ≤ s'.lastWallet) : s'.AgreesOn P := by
  refine ⟨?_, fun hk => ?_, ?_, ?_⟩
  · rw [hw]
    exact h.wallet_id
  · rw [hw] at hk
    exact Nat.le_trans (h.wallet_le hk) hl
  · rw [hw, hd]
    exact h.flagged
  · rw [hw, hd]
    exact h.entry

theorem row_seat (h : s.AgreesOn P) (hid : v.id = id) {k : Nat} {u : Wallet} (hk : k ≠ id)
    (hu : (s.seat id v).wallets.get? k = some u) :
    ∃ u₀, s.wallets.get? k = some u₀ ∧
      u = u₀.keepFlag !(v.isDefault && s.defaults.get? (walletKey v) == some k) := by
  rw [get?_seat s id h.wallet_id hid, if_neg hk] at hu
  obtain ⟨u₀, hu₀, rfl⟩ := Option.map_eq_some_iff.mp hu
  exact ⟨u₀, hu₀, rfl⟩

theorem flagged_seat (h : s.AgreesOn (· ≠ id)) {k : Nat} {u : Wallet} (hk : k ≠ id)
    (hu : s.wallets.get? k = some u) :
    (u.keepFlag !(v.isDefault && s.defaults.get? (walletKey v) == some k)).isDefault = true ↔
      (s.seat id v).defaults.get? (walletKey u) = some k := by
  rw [defaults_seat]
  by_cases hlost : v.isDefault = true ∧ s.defaults.get? (walletKey v) = some k
  · -- the index pointed at it in the slot that is taken, so its key is that of the slot
    have hslot : walletKey u = walletKey v := h.key_eq hk hu hlost.2
    rw [if_pos ⟨hlost.1, hslot⟩]
    simp [Wallet.keepFlag, hlost.1, hlost.2, Ne.symm hk]
  · have hkeeps : (v.isDefault && s.defaults.get? (walletKey v) == some k) = false := by
      simpa using hlost
    rw [hkeeps, Bool.not_false, Wallet.keepFlag_true, h.flagged hk hu]
    by_cases htakes : v.isDefault = true ∧ walletKey u = walletKey v
    · have hnot : s.defaults.get? (walletKey v) ≠ some k := fun hc => hlost ⟨htakes.1, hc⟩
      rw [if_pos htakes, htakes.2]
      simp [hnot, Ne.symm hk]
    · rw [if_neg htakes]

/-- Once a wallet is written and has taken the slot that it is flagged for, the
flags and the index agree on all. Before that the index may point at it there
only. -/
theorem seat (h : s.AgreesOn (· ≠ id)) (hid : v.id = id) (hle : id ≤ s.lastWallet)
    (hslots : ∀ key, s.defaults.get? key = some id → v.isDefault = true ∧ key = walletKey v) :
    (s.seat id v).Agrees := by
  have hself : (s.seat id v).wallets.get? id = some v := by
    rw [get?_seat s id h.wallet_id hid, if_pos rfl]
  refine ⟨fun {k u} hu => ?_, fun {k u} hu => ?_, fun {k u} _ hu => ?_, fun {key k} _ hentry => ?_⟩
  · by_cases hk : k = id
    · rw [hk, hself] at hu
      cases hu
      rw [hid, hk]
    · obtain ⟨u₀, hu₀, rfl⟩ := h.row_seat hid hk hu
      have hid₀ : u₀.id = k := h.wallet_id hu₀
      exact hid₀
  · rw [lastWallet_seat]
    by_cases hk : k = id
    · rw [hk]
      exact hle
    · obtain ⟨u₀, hu₀, -⟩ := h.row_seat hid hk hu
      exact h.wallet_le hu₀
  · by_cases hk : k = id
    · rw [hk, hself] at hu
      cases hu
      rw [defaults_seat, hk]
      by_cases hv : v.isDefault = true
      · simp [hv]
      · rw [if_neg fun hc => hv hc.1]
        exact ⟨fun hc => absurd hc hv, fun hc => (hslots _ hc).1⟩
    · obtain ⟨u₀, hu₀, rfl⟩ := h.row_seat hid hk hu
      exact h.flagged_seat hk hu₀
  · rw [defaults_seat] at hentry
    by_cases htakes : v.isDefault = true ∧ key = walletKey v
    · rw [if_pos htakes] at hentry
      rw [← Option.some.inj hentry]
      exact ⟨v, hself, htakes.2.symm⟩
    · rw [if_neg htakes] at hentry
      have hk : k ≠ id := fun hk => htakes (hslots key (hk ▸ hentry))
      obtain ⟨u₀, hu₀, hkey⟩ := h.entry hk hentry
      have hkept := get?_seat s id h.wallet_id hid k
      rw [if_neg hk, hu₀, Option.map_some] at hkept
      exact ⟨_, hkept, hkey⟩

theorem leaveSlot (h : s.Agrees) (hw : s.wallets.get? id = some w) :
    (s.leaveSlot (walletKey w) id).AgreesOn (· ≠ id) ∧
      ∀ key, (s.leaveSlot (walletKey w) id).defaults.get? key ≠ some id := by
  have hrows := wallets_leaveSlot s (walletKey w) id
  -- no other wallet had the slot
  have hkept : ∀ {key k}, k ≠ id → ((s.leaveSlot (walletKey w) id).defaults.get? key = some k ↔
      s.defaults.get? key = some k) := by
    intro key k hk
    rw [defaults_leaveSlot]
    by_cases hleft : key = walletKey w ∧ s.defaults.get? (walletKey w) = some id
    · rw [if_pos hleft, hleft.1, hleft.2]
      simp [Ne.symm hk]
    · rw [if_neg hleft]
  refine ⟨⟨?_, fun hu => ?_, fun hk hu => ?_, fun hk hentry => ?_⟩, fun key hentry => ?_⟩
  · rw [hrows]
    exact h.wallet_id
  · rw [hrows] at hu
    rw [lastWallet_leaveSlot]
    exact h.wallet_le hu
  · rw [hrows] at hu
    rw [hkept hk]
    exact h.flagged trivial hu
  · rw [hrows]
    exact h.entry trivial ((hkept hk).mp hentry)
  · rw [defaults_leaveSlot] at hentry
    split at hentry
    · cases hentry
    · rename_i hstays
      have hkey : walletKey w = key := h.key_eq trivial hw hentry
      rw [hkey] at hstays
      exact hstays ⟨rfl, hentry⟩

theorem vacate (h : s.Agrees) (hw : s.wallets.get? id = some w) :
    (s.vacate id w).AgreesOn (· ≠ id) ∧
      ∀ key, (s.vacate id w).defaults.get? key ≠ some id := by
  unfold Store.vacate
  by_cases hflag : w.isDefault = true
  · rw [if_pos hflag]
    exact h.leaveSlot hw
  · rw [if_neg hflag]
    refine ⟨h.mono fun _ _ => trivial, fun key hentry => hflag ?_⟩
    rw [h.flagged trivial hw, h.key_eq trivial hw hentry, hentry]

/-! ### Call by call -/

theorem openWallet (h : s.Agrees) {new : NewWallet} (hok : s.openWallet new = .ok (w, s')) :
    s'.Agrees := by
  obtain ⟨-, hw, rfl⟩ := openWallet_eq_ok.mp hok
  have hid : w.id = s.lastWallet + 1 := by rw [hw]; rfl
  have hnumber : Store.AgreesOn { s with lastWallet := w.id } (· ≠ w.id) := by
    refine (h.mono fun _ _ => trivial).congr rfl rfl ?_
    show s.lastWallet ≤ w.id
    omega
  have hfresh : ∀ key, s.defaults.get? key ≠ some w.id := by
    intro key hentry
    obtain ⟨u, hu, -⟩ := h.entry trivial hentry
    have hle := h.wallet_le hu
    omega
  have hseat := hnumber.seat rfl (Nat.le_refl _) fun key hentry => absurd hentry (hfresh key)
  exact hseat.congr rfl rfl (Nat.le_refl _)

theorem changeWallet (h : s.Agrees) {change : WalletChange}
    (hok : s.changeWallet id change = .ok (w, s')) : s'.Agrees := by
  obtain ⟨v, t, hv, hw, ht, rfl⟩ := changeWallet_eq_ok.mp hok
  have hmoved : t.Agrees ∧ t.wallets = s.wallets := by
    obtain ⟨-, rfl⟩ | ⟨-, -, rfl⟩ := readdress_eq_ok.mp ht
    · exact ⟨h, rfl⟩
    · exact ⟨h.congr rfl rfl (Nat.le_refl _), rfl⟩
  obtain ⟨ht, hrows⟩ := hmoved
  have hv : t.wallets.get? id = some v := by rw [hrows, hv]
  obtain ⟨hvacated, hnowhere⟩ := ht.vacate hv
  have hid : w.id = id := by
    have hvid : v.id = id := ht.wallet_id hv
    rw [hw]
    exact hvid
  have hle : id ≤ (t.vacate id v).lastWallet := by
    rw [lastWallet_vacate]
    exact ht.wallet_le hv
  exact hvacated.seat hid hle fun key hentry => absurd hentry (hnowhere key)

theorem makeDefault (h : s.Agrees) {owner : Nat} (hok : s.makeDefault owner id = .ok (w, s')) :
    s'.Agrees := by
  obtain ⟨v, hv, -, hw, rfl⟩ := makeDefault_eq_ok.mp hok
  have hkey : walletKey w = walletKey v := by rw [hw]; rfl
  have hflag : w.isDefault = true := by rw [hw]
  have hid : w.id = id := by
    have hvid : v.id = id := h.wallet_id hv
    rw [hw]
    exact hvid
  refine (h.mono fun _ _ => trivial).seat hid (h.wallet_le hv) fun key hentry => ⟨hflag, ?_⟩
  rw [hkey, h.key_eq trivial hv hentry]

theorem erase (h : s.AgreesOn (· ≠ id)) (hnowhere : ∀ key, s.defaults.get? key ≠ some id) :
    Store.Agrees { s with wallets := s.wallets.erase id } := by
  have hrow : ∀ k, (s.wallets.erase id).get? k = if k = id then none else s.wallets.get? k :=
    fun k => Table.get?_erase ..
  have hold : ∀ {k u}, (s.wallets.erase id).get? k = some u →
      k ≠ id ∧ s.wallets.get? k = some u := by
    intro k u hu
    rw [hrow] at hu
    split at hu
    · cases hu
    · exact ⟨‹_›, hu⟩
  refine ⟨fun hu => ?_, fun hu => ?_, fun _ hu => ?_, fun {key k} _ hentry => ?_⟩
  · exact h.wallet_id (hold hu).2
  · exact h.wallet_le (hold hu).2
  · exact h.flagged (hold hu).1 (hold hu).2
  · have hk : k ≠ id := fun hk => hnowhere key (hk ▸ hentry)
    obtain ⟨u, hu, hkey⟩ := h.entry hk hentry
    exact ⟨u, by rw [hrow, if_neg hk, hu], hkey⟩

theorem closeWallet (h : s.Agrees) (hok : s.closeWallet id = .ok (w, s')) : s'.Agrees := by
  obtain ⟨hw, rfl⟩ := closeWallet_eq_ok.mp hok
  obtain ⟨hleft, hnowhere⟩ := h.leaveSlot hw
  refine (hleft.erase hnowhere).congr ?_ ?_ ?_
  · rw [wallets_leaveSlot, wallets_leaveSlot]
  · unfold Store.leaveSlot
    split <;> rfl
  · rw [lastWallet_leaveSlot, lastWallet_leaveSlot]

theorem rebalance (h : s.Agrees) {ε : Type} {ofStore : StoreFault → ε}
    {compute : Wallet → Except ε Int} (hok : s.rebalance ofStore id compute = .ok (w, s')) :
    s'.Agrees := by
  obtain ⟨v, b, hv, -, -, rfl⟩ := rebalance_eq_ok.mp hok
  have hid : v.id = id := h.wallet_id hv
  have hrow : ∀ {k u}, (s.putWallet { v with balance := b }).wallets.get? k = some u →
      ∃ u₀, s.wallets.get? k = some u₀ ∧ u.id = u₀.id ∧ walletKey u = walletKey u₀ ∧
        u.isDefault = u₀.isDefault := by
    intro k u hu
    rw [get?_putWallet] at hu
    split at hu
    · rename_i hk
      cases hu
      exact ⟨v, by rw [hk, ← hv]; exact congrArg _ hid, rfl, rfl, rfl⟩
    · exact ⟨u, hu, rfl, rfl, rfl⟩
  refine ⟨fun hu => ?_, fun hu => ?_, fun _ hu => ?_, fun {key k} _ hentry => ?_⟩
  · obtain ⟨u₀, hu₀, hids, -, -⟩ := hrow hu
    rw [hids, h.wallet_id hu₀]
  · obtain ⟨u₀, hu₀, -, -, -⟩ := hrow hu
    exact h.wallet_le hu₀
  · obtain ⟨u₀, hu₀, -, hkey, hflag⟩ := hrow hu
    rw [hkey, hflag]
    exact h.flagged trivial hu₀
  · obtain ⟨u, hu, hkey⟩ := h.entry trivial hentry
    rw [get?_putWallet]
    by_cases hk : k = id
    · rw [hk, hv] at hu
      cases hu
      exact ⟨_, if_pos (hk.trans hid.symm), hkey⟩
    · exact ⟨u, by rw [if_neg fun hc => hk (hc.trans hid), hu], hkey⟩

end AgreesOn

theorem WalletCall.agrees_run (h : s.Agrees) (call : WalletCall) : (call.run s).Agrees := by
  cases call with
  | openWallet new => exact after_of h fun hok => h.openWallet hok
  | changeWallet id change => exact after_of h fun hok => h.changeWallet hok
  | makeDefault owner id => exact after_of h fun hok => h.makeDefault hok
  | closeWallet id => exact after_of h fun hok => h.closeWallet hok
  | rebalance id compute => exact after_of h fun hok => h.rebalance hok

theorem agrees_foldl (h : s.Agrees) (calls : List WalletCall) :
    (calls.foldl WalletCall.run s).Agrees := by
  induction calls generalizing s with
  | nil => exact h
  | cons call calls ih => exact ih (call.agrees_run h)

theorem defaultWallet?_eq_some (h : s.Agrees) {owner : Nat} {currency : String} :
    s.defaultWallet? owner currency = some w ↔
      s.wallets.get? w.id = some w ∧ w.isDefault = true ∧ w.owner = owner ∧
        Text.upper w.currency = Text.upper currency := by
  have hkey : walletKey w = defaultKey owner currency ↔
      w.owner = owner ∧ Text.upper w.currency = Text.upper currency := defaultKey_inj
  rw [← hkey]
  unfold defaultWallet?
  rw [Option.bind_eq_some_iff]
  constructor
  · rintro ⟨k, hentry, hw⟩
    have hslot : walletKey w = defaultKey owner currency := h.key_eq trivial hw hentry
    rw [h.wallet_id hw]
    exact ⟨hw, by rw [h.flagged trivial hw, hslot, hentry], hslot⟩
  · rintro ⟨hw, hflag, hslot⟩
    refine ⟨w.id, ?_, hw⟩
    rw [← hslot]
    exact (h.flagged trivial hw).mp hflag

/-- **Flags and index agree.** After any calls that write wallets, failed ones among
them, a wallet is flagged when the index maps its key to it, and the index points at
wallets that are there, each under its own key. So of the wallets of a user for a
currency, in whatever letter case it is written, one at most is flagged, and that is
the one that is found as the default. -/
theorem defaults_agree (calls : List WalletCall) :
    let s := calls.foldl WalletCall.run .empty
    (∀ k w, s.wallets.get? k = some w →
      w.id = k ∧ (w.isDefault = true ↔ s.defaults.get? (walletKey w) = some w.id)) ∧
    (∀ key k, s.defaults.get? key = some k →
      ∃ w, s.wallets.get? k = some w ∧ walletKey w = key) ∧
    (∀ w v, s.wallets.get? w.id = some w → s.wallets.get? v.id = some v →
      w.isDefault = true → v.isDefault = true → w.owner = v.owner →
      Text.upper w.currency = Text.upper v.currency → w = v) ∧
    ∀ owner currency w, s.defaultWallet? owner currency = some w ↔
      s.wallets.get? w.id = some w ∧ w.isDefault = true ∧ w.owner = owner ∧
        Text.upper w.currency = Text.upper currency := by
  intro s
  have h : s.Agrees := agrees_foldl agrees_empty calls
  refine ⟨fun k w hw => ?_, fun key k hentry => h.entry trivial hentry,
    fun w v hw hv hwflag hvflag howner hcurrency => ?_,
    fun owner currency w => defaultWallet?_eq_some h⟩
  · have hid := h.wallet_id hw
    rw [hid]
    exact ⟨rfl, h.flagged trivial hw⟩
  · have hfound : s.defaultWallet? v.owner v.currency = some w :=
      (defaultWallet?_eq_some h).mpr ⟨hw, hwflag, howner, hcurrency⟩
    have hfound' : s.defaultWallet? v.owner v.currency = some v :=
      (defaultWallet?_eq_some h).mpr ⟨hv, hvflag, rfl, rfl⟩
    rw [hfound] at hfound'
    exact Option.some.inj hfound'

end Clearing.Store
