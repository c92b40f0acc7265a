import Mathlib.Data.List.Nodup
import PtpCore.Proof.Global.Helpers
import PtpCore.Server.BusinessSelect

/-!
# Which connection is chosen

The number of login slots is a multiple of the number of connections that each server gets, and at
most the number of slots, so the two ranges make up all of them. A search answers an open connection
of its range whenever there is one. Two configurations go wrong: no connection for each server,
which divides by zero, and more than `2 ^ 31` slots, whose indices do not fit into an `int`
(`businessSelection_iff`).
-/

namespace PtpCore
namespace Proof
namespace Server

open Lib PtpCore.Global PtpCore.Server PtpCore.Server.ServInfo
open PtpCore.Proof.Global

/-! ## Reading the configuration -/

section

variable {config : ConfigMap} {ipFormat portFormat : Bytes}

theorem printInt_injective {m n : UInt32} (h : printInt m = printInt n) : m = n := by
  have hdigit : ∀ k : Nat, ∀ rest : Bytes, decimal k ≠ 0x2d :: rest := by
    intro k rest heq
    have hmem : (0x2d : UInt8) ∈ decimal k := by
      rw [heq]
      exact List.mem_cons_self
    exact absurd (isDigit_of_mem_decimal k _ hmem) (by unfold IsDigit; decide)
  have hm := m.toNat_lt
  have hn := n.toNat_lt
  unfold printInt at h
  apply UInt32.toNat_inj.mp
  by_cases h1 : m.toNat < 2 ^ 31
  · rw [if_pos h1] at h
    by_cases h2 : n.toNat < 2 ^ 31
    · rw [if_pos h2] at h
      exact decimal_injective h
    · rw [if_neg h2] at h
      exact absurd h (hdigit _ _)
  · rw [if_neg h1] at h
    by_cases h2 : n.toNat < 2 ^ 31
    · rw [if_pos h2] at h
      exact absurd h.symm (hdigit _ _)
    · rw [if_neg h2] at h
      have hsame := decimal_injective (List.cons.inj h).2
      omega

/-- Either the loop stops by itself, or all the entries it asked for are there. -/
theorem countServers_cases (fuel : Nat) (n : UInt32) :
    serverTexts config ipFormat portFormat
        (countServers config ipFormat portFormat fuel n + 1) = none ∨
      ∀ k < fuel, (serverTexts config ipFormat portFormat (n + 1 + UInt32.ofNat k)).isSome := by
  induction fuel generalizing n with
  | zero =>
    right
    intro k hk
    exact absurd hk (Nat.not_lt_zero k)
  | succ fuel ih =>
    unfold countServers
    by_cases hfirst : (serverTexts config ipFormat portFormat (n + 1)).isSome
    · rw [if_pos hfirst]
      refine (ih (n + 1)).imp_right fun hrest k hk => ?_
      cases k with
      | zero => simpa using hfirst
      | succ k =>
        have hnext := hrest k (Nat.lt_of_succ_lt_succ hk)
        rw [Nat.add_comm k 1, UInt32.ofNat_add, ← UInt32.add_assoc]
        exact hnext
    · rw [if_neg hfirst]
      left
      simpa using hfirst

theorem mem_keys_of_serverTexts {n : UInt32}
    (h : (serverTexts config ipFormat portFormat n).isSome) :
    ipFormat ++ printInt n ∈ config.map Prod.fst := by
  cases hip : config.find (ipFormat ++ printInt n) with
  | none => simp [serverTexts, hip] at h
  | some ip => exact List.mem_map_of_mem (Assoc.mem_of_find hip)

/-- The rounds that are counted suffice: each server needs an entry of its own. -/
theorem countServers_stops (h : config.length + 1 < 2 ^ 32) :
    serverTexts config ipFormat portFormat
      (countServers config ipFormat portFormat (config.length + 1) 0 + 1) = none := by
  refine (countServers_cases (config.length + 1) 0).resolve_right fun hall => ?_
  let key : Nat → Bytes := fun k => ipFormat ++ printInt (0 + 1 + UInt32.ofNat k)
  have hinj : ∀ i ∈ List.range (config.length + 1), ∀ j ∈ List.range (config.length + 1),
      key i = key j → i = j := by
    intro i hi j hj hkey
    rw [List.mem_range] at hi hj
    have hsame := (UInt32.add_right_inj _).mp (printInt_injective (List.append_cancel_left hkey))
    have hnat := congrArg UInt32.toNat hsame
    rwa [UInt32.toNat_ofNat_of_lt' (Nat.lt_trans hi h),
      UInt32.toNat_ofNat_of_lt' (Nat.lt_trans hj h)] at hnat
  have hnodup : ((List.range (config.length + 1)).map key).Nodup :=
    List.Nodup.map_on hinj List.nodup_range
  have hsub : (List.range (config.length + 1)).map key ⊆ config.map Prod.fst := by
    intro x hx
    obtain ⟨k, hk, rfl⟩ := List.mem_map.mp hx
    exact mem_keys_of_serverTexts (hall k (List.mem_range.mp hk))
  have hlen := hnodup.length_le_of_subset hsub
  simp at hlen

end

/-! ## The two ranges -/

def InRange (r : Nat × Nat) (i : Nat) : Prop := r.1 ≤ i ∧ i < r.2

/-- How many slots are for logins, as a number: at most half of them. -/
theorem toNat_loginCount (serverCount concurConnCnt : UInt32) :
    (serverCount / concurConnCnt / 2 * concurConnCnt).toNat =
        serverCount.toNat / concurConnCnt.toNat / 2 * concurConnCnt.toNat ∧
      2 * (serverCount.toNat / concurConnCnt.toNat / 2 * concurConnCnt.toNat) ≤
        serverCount.toNat := by
  have hhalf : 2 * (serverCount.toNat / concurConnCnt.toNat / 2 * concurConnCnt.toNat) ≤
      serverCount.toNat := by
    calc 2 * (serverCount.toNat / concurConnCnt.toNat / 2 * concurConnCnt.toNat)
        = 2 * (serverCount.toNat / concurConnCnt.toNat / 2) * concurConnCnt.toNat :=
          (Nat.mul_assoc ..).symm
      _ ≤ serverCount.toNat / concurConnCnt.toNat * concurConnCnt.toNat :=
          Nat.mul_le_mul_right _ (Nat.mul_div_le _ 2)
      _ ≤ serverCount.toNat := Nat.div_mul_le_self _ _
  have hfits : serverCount.toNat / concurConnCnt.toNat / 2 * concurConnCnt.toNat < 2 ^ 32 := by
    have hcount := serverCount.toNat_lt
    omega
  refine ⟨?_, hhalf⟩
  rw [UInt32.toNat_mul, UInt32.toNat_div, UInt32.toNat_div]
  exact Nat.mod_eq_of_lt hfits

/-! ## One range -/

section

variable {s : BusinessConns} {startPos stopPos : Nat} {draws : List Rand}

/-- No connection of the range is open. -/
def NoneOpen (s : BusinessConns) (r : Nat × Nat) : Prop := ∀ i, InRange r i → openAt s i = none

theorem scanRange_iff (h : startPos ≤ stopPos) :
    scanRange s startPos stopPos = stopPos ↔ NoneOpen s (startPos, stopPos) := by
  unfold scanRange
  cases hfind : (List.range' startPos (stopPos - startPos)).find? fun i => (openAt s i).isSome with
  | none =>
    rw [List.find?_eq_none] at hfind
    refine ⟨fun _ i hi => ?_, fun _ => Nat.max_eq_right h⟩
    have hlt : i < startPos + (stopPos - startPos) := by
      rw [Nat.add_sub_cancel' h]
      exact hi.2
    simpa using hfind i (List.mem_range'_1.mpr ⟨hi.1, hlt⟩)
  | some i =>
    have hopen := List.find?_some hfind
    have hmem := List.mem_range'_1.mp (List.mem_of_find?_eq_some hfind)
    constructor
    · intro heq
      change i = stopPos at heq
      omega
    · intro hnone
      rw [hnone i ⟨hmem.1, by dsimp only; omega⟩] at hopen
      cases hopen

/-- The random loop ends with an open connection of its range, as long as every index fits. -/
theorem pickRandom_spec (h : startPos < stopPos) (hfits : stopPos ≤ 2 ^ 31 ∨ startPos = 0)
    {found : Found} {rest : List Rand}
    (hpick : pickRandom s startPos stopPos draws = some (found, rest)) :
    ∃ i c, InRange (startPos, stopPos) i ∧ openAt s i = some c ∧ found = .conn c := by
  induction draws with
  | nil => cases hpick
  | cons r draws ih =>
    have hmod : r.val % (stopPos - startPos) < stopPos - startPos := Nat.mod_lt _ (by omega)
    have hle : r.val % (stopPos - startPos) ≤ r.val := Nat.mod_le _ _
    have hr := r.isLt
    have hindex : r.val % (stopPos - startPos) + startPos < 2 ^ 31 := by omega
    rw [pickRandom, if_neg (Nat.not_le.mpr hindex)] at hpick
    cases hopen : openAt s (r.val % (stopPos - startPos) + startPos) with
    | none =>
      rw [hopen] at hpick
      exact ih hpick
    | some c =>
      rw [hopen] at hpick
      cases hpick
      exact ⟨_, c, ⟨Nat.le_add_left .., by dsimp only; omega⟩, hopen, rfl⟩

/-- Where the indices of a range fit into an `int`. -/
def IndexFits (r : Nat × Nat) : Prop := r.2 ≤ 2 ^ 31 ∨ r.1 = 0

theorem inRange_null {r : Nat × Nat} (h : r.1 ≤ r.2) (hnone : NoneOpen s r) (draws : List Rand) :
    getBusinessServerConnInRange s r.1 r.2 draws = some (.null, draws) := by
  rw [getBusinessServerConnInRange, if_pos ((scanRange_iff h).mpr hnone)]

theorem inRange_conn {r : Nat × Nat} (h : r.1 ≤ r.2) (hfits : IndexFits r) (hopen : ¬ NoneOpen s r)
    {found : Found} {rest : List Rand}
    (hget : getBusinessServerConnInRange s r.1 r.2 draws = some (found, rest)) :
    ∃ i c, InRange r i ∧ openAt s i = some c ∧ found = .conn c := by
  rw [getBusinessServerConnInRange, if_neg fun heq => hopen ((scanRange_iff h).mp heq)] at hget
  have hlt : r.1 < r.2 := by
    refine Nat.lt_of_le_of_ne h fun heq => hopen fun i hi => ?_
    exact absurd hi.2 (Nat.not_lt.mpr (heq ▸ hi.1))
  exact pickRandom_spec hlt hfits hget

end

/-! ## Both ranges -/

/-- An open connection of the first range if it has one, else of the second, else a new one. -/
structure SelectsIn (s : BusinessConns) (first second : Nat × Nat) (result : Option Selected) :
    Prop where
  preferred : ¬ NoneOpen s first → ∀ r, result = some r →
    ∃ i c, InRange first i ∧ openAt s i = some c ∧ r = .registered c
  other : NoneOpen s first → ¬ NoneOpen s second → ∀ r, result = some r →
    ∃ i c, InRange second i ∧ openAt s i = some c ∧ r = .registered c
  fresh : NoneOpen s first → NoneOpen s second → result = some .fresh

theorem selectsIn_searchRanges {s : BusinessConns} {first second : Nat × Nat}
    (h1 : first.1 ≤ first.2) (h2 : second.1 ≤ second.2) (hfits1 : IndexFits first)
    (hfits2 : IndexFits second) (draws : List Rand) :
    SelectsIn s first second ((searchRanges s first second draws).map .ofFound) := by
  refine ⟨?_, ?_, ?_⟩
  · intro hopen r hr
    obtain ⟨found, hfound, rfl⟩ := Option.map_eq_some_iff.mp hr
    cases hget : getBusinessServerConnInRange s first.1 first.2 draws with
    | none =>
      rw [searchRanges, hget] at hfound
      cases hfound
    | some answer =>
      obtain ⟨found', rest⟩ := answer
      obtain ⟨i, c, hi, hc, rfl⟩ := inRange_conn h1 hfits1 hopen hget
      rw [searchRanges, hget] at hfound
      cases hfound
      exact ⟨i, c, hi, hc, rfl⟩
  · intro hnone hopen r hr
    obtain ⟨found, hfound, rfl⟩ := Option.map_eq_some_iff.mp hr
    rw [searchRanges, inRange_null h1 hnone] at hfound
    obtain ⟨⟨found', rest⟩, hget, rfl⟩ := Option.map_eq_some_iff.mp hfound
    obtain ⟨i, c, hi, hc, rfl⟩ := inRange_conn h2 hfits2 hopen hget
    exact ⟨i, c, hi, hc, rfl⟩
  · intro hnone1 hnone2
    rw [searchRanges, inRange_null h1 hnone1]
    dsimp only
    rw [inRange_null h2 hnone2]
    rfl

/-- What is asked of a configuration: that it can be set up, that the two ranges make up the slots,
    and that both functions choose as they should, whatever the slots are and `rand` returns. -/
structure SelectsWell (g : BusinessServers) : Prop where
  slots : g.addrs.length = g.serverCount.toNat
  cover : ∀ i, i < g.serverCount.toNat ↔ InRange (loginRange g) i ∨ InRange (otherRange g) i
  disjoint : ∀ i, ¬ (InRange (loginRange g) i ∧ InRange (otherRange g) i)
  forLogin : ∀ s draws, s.serverList.length = g.serverCount.toNat →
    SelectsIn s (loginRange g) (otherRange g) (getBusinessServConnForLogin g s draws)
  forOthers : ∀ s draws, s.serverList.length = g.serverCount.toNat →
    SelectsIn s (otherRange g) (loginRange g) (getBusinessServConn g s draws)

theorem selectsWell {g : BusinessServers} (hslots : g.addrs.length = g.serverCount.toNat)
    (hle : g.loginCount.toNat ≤ g.serverCount.toNat)
    (hfits : IndexFits (otherRange g)) : SelectsWell g := by
  have hlogin : IndexFits (loginRange g) := .inr rfl
  refine ⟨hslots, ?_, ?_, ?_, ?_⟩
  · intro i
    simp only [InRange, loginRange, otherRange]
    omega
  · intro i
    simp only [InRange, loginRange, otherRange]
    omega
  · intro s draws _
    exact selectsIn_searchRanges (Nat.zero_le _) hle hlogin hfits draws
  · intro s draws _
    exact selectsIn_searchRanges hle (Nat.zero_le _) hfits hlogin draws

/-! ## Indices that do not fit -/

/-- Slots that all hold the same open connection. -/
def allOpen (n : Nat) : BusinessConns where
  serverList := List.replicate n ⟨0, 0, some 0⟩
  connMap := []
  conns := [(0, { handle := 1, isOpen := true, servIdx := 0, lastRecvTick := 0 })]
  nextConn := 1
  attempts := []

theorem openAt_allOpen {n i : Nat} (h : i < n) : openAt (allOpen n) i = some 0 := by
  have hslot : (allOpen n).serverList[i]? = some ⟨0, 0, some 0⟩ := by
    simp [allOpen, h]
  rw [openAt, hslot]
  rfl

/-- Then a large number leads out of the array. -/
theorem not_selectsWell {g : BusinessServers} (hle : g.loginCount.toNat ≤ g.serverCount.toNat)
    (hlogin : 0 < g.loginCount.toNat) (hlarge : 2 ^ 31 < g.serverCount.toNat)
    (hhalf : 2 * g.loginCount.toNat ≤ g.serverCount.toNat) : ¬ SelectsWell g := by
  intro h
  have hn : 0 < g.serverCount.toNat - g.loginCount.toNat := by omega
  have hopen : ¬ NoneOpen (allOpen g.serverCount.toNat) (otherRange g) := by
    intro hnone
    have hfirst := hnone g.loginCount.toNat ⟨Nat.le_refl _, by dsimp only [otherRange]; omega⟩
    rw [openAt_allOpen (by omega)] at hfirst
    cases hfirst
  -- the largest number, or the last slot of the range
  have hr : min (2 ^ 31 - 1) (g.serverCount.toNat - g.loginCount.toNat - 1) < 2 ^ 31 := by omega
  have hget : getBusinessServConn g (allOpen g.serverCount.toNat) [⟨_, hr⟩] = some .outside := by
    have hscan : scanRange (allOpen g.serverCount.toNat) g.loginCount.toNat g.serverCount.toNat ≠
        g.serverCount.toNat := fun heq => hopen ((scanRange_iff hle).mp heq)
    have hmod : min (2 ^ 31 - 1) (g.serverCount.toNat - g.loginCount.toNat - 1) %
          (g.serverCount.toNat - g.loginCount.toNat) =
        min (2 ^ 31 - 1) (g.serverCount.toNat - g.loginCount.toNat - 1) :=
      Nat.mod_eq_of_lt (by omega)
    have hpick : getBusinessServerConnInRange (allOpen g.serverCount.toNat) (otherRange g).1
        (otherRange g).2 [⟨_, hr⟩] = some (.outside, []) := by
      dsimp only [otherRange]
      rw [getBusinessServerConnInRange, if_neg hscan, pickRandom]
      dsimp only
      rw [hmod, if_pos (by omega)]
    rw [getBusinessServConn, searchRanges, hpick]
    rfl
  obtain ⟨i, c, -, -, hsel⟩ := (h.forOthers (allOpen g.serverCount.toNat) [⟨_, hr⟩]
    (by simp [allOpen])).preferred hopen _ hget
  cases hsel

/-! ## Every configuration -/

/-- The configuration is set up, and connections are then chosen as they should be. -/
def BusinessSelection (config : ConfigMap) : Prop :=
  ∃ g, setupBusiness config = .ok g ∧ SelectsWell g

/-- The ranges of a configuration whose connections can be divided. -/
def dividedServers (config : ConfigMap) : BusinessServers where
  addrs := (List.range (slotCount config).toNat).map fun i =>
    (dbServers config).getD (i / (concurrentDbConnCnt config).toNat) ⟨[], 0⟩
  serverCount := slotCount config
  loginCount := slotCount config / concurrentDbConnCnt config / 2 * concurrentDbConnCnt config

section

variable {config : ConfigMap}

theorem setupBusiness_none (h : dbServerCount config = 0) : setupBusiness config = .ok .unset := by
  rw [setupBusiness, h]
  rfl

theorem setupBusiness_zero (h : dbServerCount config ≠ 0) (hzero : concurrentDbConnCnt config = 0) :
    setupBusiness config = .error {} := by
  rw [setupBusiness, if_pos (UInt32.pos_iff_ne_zero.mpr h), initBusinessServConn, if_pos hzero]

theorem setupBusiness_some (h : dbServerCount config ≠ 0)
    (hpos : concurrentDbConnCnt config ≠ 0) :
    setupBusiness config = .ok (dividedServers config) := by
  rw [setupBusiness, if_pos (UInt32.pos_iff_ne_zero.mpr h), initBusinessServConn, if_neg hpos]
  rfl

theorem selectsWell_unset : SelectsWell .unset :=
  selectsWell rfl (Nat.le_refl _) (.inr rfl)

theorem selectsWell_divided_iff (hpos : concurrentDbConnCnt config ≠ 0) :
    SelectsWell (dividedServers config) ↔ (slotCount config).toNat ≤ 2 ^ 31 ∨
      slotCount config / concurrentDbConnCnt config < 2 := by
  obtain ⟨hlogin, hhalf⟩ := toNat_loginCount (slotCount config) (concurrentDbConnCnt config)
  rw [← hlogin] at hhalf
  have hslots : (dividedServers config).addrs.length =
      (dividedServers config).serverCount.toNat := by
    simp [dividedServers]
  have hle : (dividedServers config).loginCount.toNat ≤
      (dividedServers config).serverCount.toNat := by
    dsimp only [dividedServers]
    omega
  constructor
  · intro hwell
    by_contra hneither
    obtain ⟨hlarge, htwo⟩ := not_or.mp hneither
    -- with two servers or more there are slots for logins
    have hsome : 0 < (dividedServers config).loginCount.toNat := by
      have hcnt : 0 < (concurrentDbConnCnt config).toNat := UInt32.pos_iff_ne_zero.mpr hpos
      have hquot : 2 ≤ (slotCount config).toNat / (concurrentDbConnCnt config).toNat := by
        rw [← UInt32.toNat_div]
        exact UInt32.not_lt.mp htwo
      dsimp only [dividedServers]
      rw [hlogin]
      exact Nat.mul_pos (Nat.div_pos hquot (by decide)) hcnt
    exact not_selectsWell hle hsome (Nat.not_le.mp hlarge) hhalf hwell
  · rintro (hfits | hfew)
    · exact selectsWell hslots hle (.inl hfits)
    · have hquot : (slotCount config).toNat / (concurrentDbConnCnt config).toNat < 2 := by
        rw [← UInt32.toNat_div]
        exact hfew
      have hnone : (dividedServers config).loginCount.toNat = 0 := by
        dsimp only [dividedServers]
        rw [hlogin, Nat.div_eq_of_lt hquot, Nat.zero_mul]
      exact selectsWell hslots hle (.inr hnone)

theorem businessSelection_iff (config : ConfigMap) :
    BusinessSelection config ↔ dbServerCount config = 0 ∨
      (concurrentDbConnCnt config ≠ 0 ∧
        ((slotCount config).toNat ≤ 2 ^ 31 ∨
          slotCount config / concurrentDbConnCnt config < 2)) := by
  unfold BusinessSelection
  by_cases hnone : dbServerCount config = 0
  · simp only [hnone, true_or, iff_true]
    exact ⟨_, setupBusiness_none hnone, selectsWell_unset⟩
  · by_cases hzero : concurrentDbConnCnt config = 0
    · simp [setupBusiness_zero hnone hzero, hnone, hzero]
    · rw [setupBusiness_some hnone hzero]
      simp only [Except.ok.injEq, exists_eq_left', hnone, false_or, ne_eq, hzero, not_false_eq_true,
        true_and]
      exact selectsWell_divided_iff hzero

/-- One server, and no connection for it. -/
def noConnectionConfig : ConfigMap :=
  [("MSG_DBServerIP1".toUTF8.toList, "127.0.0.1".toUTF8.toList),
   ("MSG_DBServerPort1".toUTF8.toList, "10600".toUTF8.toList),
   ("MSG_ConcurrentDBConnCnt".toUTF8.toList, "0".toUTF8.toList)]

theorem not_businessSelection_zero : ¬ BusinessSelection noConnectionConfig := by
  have hsetup : setupBusiness noConnectionConfig = .error {} :=
    setupBusiness_zero (by decide +kernel) (by decide +kernel)
  rintro ⟨g, hg, -⟩
  rw [hsetup] at hg
  cases hg

end

end Server
end Proof
end PtpCore
