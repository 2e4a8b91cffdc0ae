import Mathlib
import FairCoin.Ports.AddrManRun

/-!
# What `GetAddr_` and `Select_` return

`GetAddr_` runs a partial Fisher–Yates shuffle over `vRandom`: pass `n` swaps
slot `n` with a later one and keeps the entry it brings there unless it is
terrible. The slots before `n` are never touched again, so what the loop has
gathered is always the good addresses of the fixed prefix (`goodAddrs`), and
since `vRandom` lists every entry once, a loop that runs to the end has gathered
every entry that is not terrible. `Select_` scans a table for a cell that holds
an id and returns its entry if a draw against its chance succeeds.

## Main results

* `getAddr_spec` — from a consistent state `GetAddr_` fails no assert, keeps the
  state consistent with the same entries, and returns `min nNodes g` addresses
  of entries that are not terrible, `g` their number, no two with the same
  network address.
* `select_spec` — `Select_` fails no assert, returns the empty entry exactly
  when there is nothing to select, and otherwise an entry of the table it picked.
-/

namespace FairCoin.Ports.AddrMan

open FairCoin.Verified FairCoin.Verified.DenseIndex FairCoin.Verified.CellCount Function

variable {N : Type} [LinearOrder N] {h : BucketHash N}

namespace CAddrMan

/-! ## `GetAddr_` -/

/-- The addresses of the entries of `ids` that are not terrible at `nNow`, in
order: what the loop of `GetAddr_` has gathered from the slots of `vRandom` it
has passed. -/
def goodAddrs (entries : Nat → Option (CAddrInfo N)) (nNow : Int64) (ids : List Nat) :
    List (CAddress N) :=
  ids.filterMap fun nId =>
    (entries nId).bind fun ai => if ai.IsTerrible nNow then none else some ai.toCAddress

/-- One entry counts one towards the addresses `GetAddr_` may return if it is
not terrible. -/
def goodOne (nNow : Int64) (info : CAddrInfo N) : Nat := if info.IsTerrible nNow then 0 else 1

omit [LinearOrder N] in
theorem goodAddrs_append_singleton (entries : Nat → Option (CAddrInfo N)) (nNow : Int64)
    (ids : List Nat) (nId : Nat) (ai : CAddrInfo N) (hE : entries nId = some ai) :
    goodAddrs entries nNow (ids ++ [nId]) =
      if ai.IsTerrible nNow then goodAddrs entries nNow ids
      else goodAddrs entries nNow ids ++ [ai.toCAddress] := by
  unfold goodAddrs
  split_ifs with hT <;> simp [List.filterMap_append, hE, hT]

omit [LinearOrder N] in
theorem goodAddrs_sublist (entries : Nat → Option (CAddrInfo N)) (nNow : Int64)
    {ids ids' : List Nat} (hSub : ids.Sublist ids') :
    (goodAddrs entries nNow ids).Sublist (goodAddrs entries nNow ids') :=
  hSub.filterMap _

omit [LinearOrder N] in
/-- Over a list that holds each id of `mapInfo` once, the addresses gathered
are as many as the entries that are not terrible. -/
theorem length_goodAddrs {mapInfo : SortedMap Nat (CAddrInfo N)} {ids : List Nat} (hl : ids.Nodup)
    (hMem : ∀ k, k ∈ ids ↔ (mapInfo.find? k).isSome) (nNow : Int64) :
    (goodAddrs (entryOf mapInfo) nNow ids).length = mapInfo.sumBy (goodOne nNow) := by
  rw [← SortedMap.sum_map_eq_sumBy hl hMem]
  clear hl hMem
  induction ids with
  | nil => rfl
  | cons a ids ih =>
    rw [List.map_cons, List.sum_cons, ← ih]
    cases hF : mapInfo.find? a with
    | none => simp [goodAddrs, entryOf, hF]
    | some ai =>
      by_cases hBad : ai.IsTerrible nNow = true <;>
        simp [goodAddrs, entryOf, hF, hBad, goodOne, Nat.add_comm]

omit [LinearOrder N] in
theorem mem_goodAddrs {entries : Nat → Option (CAddrInfo N)} {nNow : Int64} {ids : List Nat}
    {a : CAddress N} (ha : a ∈ goodAddrs entries nNow ids) :
    ∃ nId ∈ ids, ∃ ai, entries nId = some ai ∧ ai.IsTerrible nNow = false ∧ ai.toCAddress = a := by
  simp only [goodAddrs, List.mem_filterMap, Option.bind_eq_some_iff] at ha
  obtain ⟨nId, hMem, ai, hE, hA⟩ := ha
  split_ifs at hA with hT
  exact ⟨nId, hMem, ai, hE, by simpa using hT, Option.some.inj hA⟩

omit [LinearOrder N] in
/-- Ids of distinct entries give addresses with distinct network addresses. -/
theorem nodup_goodAddrs {mapInfo : SortedMap Nat (CAddrInfo N)} {nNow : Int64} {ids : List Nat}
    (hl : ids.Nodup)
    (hIp : ∀ n n' e e', slotsOf mapInfo n = some e → slotsOf mapInfo n' = some e' →
      e.1.ip = e'.1.ip → n = n') :
    ((goodAddrs (entryOf mapInfo) nNow ids).map fun a => a.ip).Nodup := by
  induction ids with
  | nil => simp [goodAddrs]
  | cons a ids ih =>
    obtain ⟨haNot, hl'⟩ := List.nodup_cons.mp hl
    have hRest := ih hl'
    cases hF : mapInfo.find? a with
    | none => simpa [goodAddrs, entryOf, hF] using hRest
    | some ai =>
      by_cases hBad : ai.IsTerrible nNow = true
      · simpa [goodAddrs, entryOf, hF, hBad] using hRest
      · have hHead : (goodAddrs (entryOf mapInfo) nNow (a :: ids)).map (fun a => a.ip) =
            ai.ip :: (goodAddrs (entryOf mapInfo) nNow ids).map fun a => a.ip := by
          simp [goodAddrs, entryOf, hF, hBad]
        rw [hHead, List.nodup_cons]
        refine ⟨?_, hRest⟩
        intro hIn
        obtain ⟨b, hb, hbIp⟩ := List.mem_map.mp hIn
        obtain ⟨nId, hMem, bi, hE, -, rfl⟩ := mem_goodAddrs hb
        obtain ⟨bi', hF', rfl⟩ : ∃ bi', mapInfo.find? nId = some bi' ∧ bi'.unplaced = bi := by
          simpa [entryOf] using hE
        have hSame := hIp nId a bi'.slots ai.slots (by simp [slotsOf, hF'])
          (by simp [slotsOf, hF]) hbIp
        exact haNot (hSame ▸ hMem)

/-- The loop of `GetAddr_` from slot `n` with `k` slots left. Each pass swaps
slot `n` with a later one and fixes it; what has been gathered is always the
good addresses of the fixed slots, and the loop ends with every slot fixed or
with `nNodes` addresses. -/
theorem getAddrLoop_spec (nNodes : Nat) (nNow : Int64) (rnd : Nat → Nat) (k : Nat) :
    ∀ (s : CAddrMan N) (vAddr : List (CAddress N)) (n : Nat), Wf h s →
      s.vRandom.length = n + k → vAddr = goodAddrs (entryOf s.mapInfo) nNow (s.vRandom.take n) →
      vAddr.length ≤ nNodes →
      ∃ s' vAddr', s.getAddrLoop nNodes nNow rnd vAddr n k = some (s', vAddr') ∧ Wf h s' ∧
        entryOf s'.mapInfo = entryOf s.mapInfo ∧ vAddr'.length ≤ nNodes ∧
        ∃ n', vAddr' = goodAddrs (entryOf s.mapInfo) nNow (s'.vRandom.take n') ∧
          (s'.vRandom.length ≤ n' ∨ vAddr'.length = nNodes) := by
  induction k with
  | zero =>
    intro s vAddr n hw hLen hAddr hLe
    exact ⟨s, vAddr, rfl, hw, rfl, hLe, n, hAddr, Or.inl (by omega)⟩
  | succ k ih =>
    intro s vAddr n hw hLen hAddr hLe
    by_cases hFull : vAddr.length ≥ nNodes
    · exact ⟨s, vAddr, by simp [getAddrLoop, hFull], hw, rfl, hLe, n, hAddr, Or.inr (by omega)⟩
    have hn : n < s.vRandom.length := by omega
    have hRnd : rnd n % (s.vRandom.length - n) + n < s.vRandom.length := by
      have := Nat.mod_lt (rnd n) (show 0 < s.vRandom.length - n by omega)
      omega
    obtain ⟨m₁, hSwap, hw₁, hEntry₁⟩ := swapRandom_wf hw hn hRnd
    obtain ⟨s₁, hs₁⟩ : ∃ s₁ : CAddrMan N, s₁ = { s with
        mapInfo := m₁
        vRandom := swapped s.vRandom n (rnd n % (s.vRandom.length - n) + n) } := ⟨_, rfl⟩
    rw [← hs₁] at hSwap hw₁
    have hLen₁ : s₁.vRandom.length = s.vRandom.length := by rw [hs₁, length_swapped]
    obtain ⟨nId, hNId⟩ : ∃ nId, s₁.vRandom[n]? = some nId :=
      ⟨_, List.getElem?_eq_getElem (by omega)⟩
    obtain ⟨ai, hAi⟩ : ∃ ai, s₁.mapInfo.find? nId = some ai := by
      have hPos := hw₁.dense.pos_eq hNId
      simp only [randomPos, Option.map_eq_some_iff] at hPos
      obtain ⟨ai, hAi, -⟩ := hPos
      exact ⟨ai, hAi⟩
    have hTake : s₁.vRandom.take (n + 1) = s.vRandom.take n ++ [nId] := by
      rw [List.take_add_one, hNId, hs₁, take_swapped hn hRnd le_rfl (by omega)]
      rfl
    have hE₁ : entryOf s₁.mapInfo = entryOf s.mapInfo := by rw [hs₁]; exact hEntry₁
    have hAddr₁ : (if ai.IsTerrible nNow then vAddr else vAddr ++ [ai.toCAddress]) =
        goodAddrs (entryOf s₁.mapInfo) nNow (s₁.vRandom.take (n + 1)) := by
      have hE : entryOf s₁.mapInfo nId = some ai.unplaced := by simp [entryOf, hAi]
      rw [hTake, goodAddrs_append_singleton _ _ _ _ _ hE, hE₁, ← hAddr]
      rfl
    have hStep : s.getAddrLoop nNodes nNow rnd vAddr n (k + 1) =
        s₁.getAddrLoop nNodes nNow rnd
          (if ai.IsTerrible nNow then vAddr else vAddr ++ [ai.toCAddress]) (n + 1) k := by
      rw [getAddrLoop, if_neg hFull]
      simp only [hSwap, hNId, hAi]
    have hLe₁ : (if ai.IsTerrible nNow then vAddr else vAddr ++ [ai.toCAddress]).length ≤ nNodes := by
      split_ifs
      · exact hLe
      · rw [List.length_append, List.length_singleton]
        omega
    obtain ⟨s', vAddr', hLoop, hw', hE', hLe', n', hAddr', hEnd⟩ :=
      ih s₁ _ (n + 1) hw₁ (by omega) hAddr₁ hLe₁
    exact ⟨s', vAddr', hStep.trans hLoop, hw', hE'.trans hE₁, hLe', n', hE₁ ▸ hAddr', hEnd⟩

/-- `GetAddr_` from a consistent state fails no assert and leaves the state
consistent, with the same entries. It returns `min nNodes g` addresses, where
`g` is the number of entries not terrible at `nNow`: each the address of such
an entry, no two with the same network address. -/
theorem getAddr_spec {s : CAddrMan N} (hw : Wf h s) (nNow : Int64) (rnd : Nat → Nat) :
    ∃ s' vAddr, s.GetAddr_ nNow rnd = some (s', vAddr) ∧ Wf h s' ∧
      entryOf s'.mapInfo = entryOf s.mapInfo ∧
      vAddr.length = min (getAddrCount s.size) (s.mapInfo.sumBy (goodOne nNow)) ∧
      (vAddr.map fun a => a.ip).Nodup ∧
      ∀ a ∈ vAddr, ∃ nId info, s.mapInfo.find? nId = some info ∧
        info.IsTerrible nNow = false ∧ info.toCAddress = a := by
  obtain ⟨s', vAddr, hLoop, hw', hE', hLe, n', hAddr, hEnd⟩ :=
    getAddrLoop_spec (h := h) (getAddrCount s.vRandom.length) nNow rnd s.vRandom.length s [] 0 hw
      (by omega) (by simp [goodAddrs]) (Nat.zero_le _)
  have hNodup : s'.vRandom.Nodup := hw'.dense.nodup
  have hMem : ∀ k, k ∈ s'.vRandom ↔ (s.mapInfo.find? k).isSome := by
    intro k
    have hk := congrArg Option.isSome (congrFun hE' k)
    simp only [entryOf, Option.isSome_map] at hk
    rw [hw'.dense.mem_iff, ← hk]
    simp [randomPos]
  have hTotal := length_goodAddrs hNodup hMem nNow
  have hSub := (goodAddrs_sublist (entryOf s.mapInfo) nNow
    (List.take_sublist n' s'.vRandom)).length_le
  refine ⟨s', vAddr, hLoop, hw', hE', ?_, ?_, ?_⟩
  · rcases hEnd with hAll | hN
    · rw [List.take_of_length_le hAll] at hAddr
      rw [hAddr, hTotal]
      rw [hAddr, hTotal] at hLe
      exact (min_eq_right hLe).symm
    · rw [hAddr] at hN ⊢
      rw [hN, hTotal] at hSub
      rw [hN]
      exact (min_eq_left hSub).symm
  · rw [hAddr]
    exact nodup_goodAddrs (hNodup.sublist (List.take_sublist n' s'.vRandom))
      fun n n' e e' hn hn' hip => hw.tables.id_eq_of_ip hn hn' hip
  · intro a ha
    rw [hAddr] at ha
    obtain ⟨nId, -, ai, hE, hT, rfl⟩ := mem_goodAddrs ha
    obtain ⟨info, hF, rfl⟩ : ∃ info, s.mapInfo.find? nId = some info ∧ info.unplaced = ai := by
      simpa [entryOf] using hE
    exact ⟨nId, info, hF, by simpa using hT, by simp⟩

end CAddrMan

/-! ## `Select_` -/

/-- The scan of `Select_` stops only at a cell that holds an id. -/
theorem scanTable_some {B S : Nat} {vv : Fin B × Fin S → Option Nat} {rnd : Nat → Nat} :
    ∀ {fuel i : Nat} {b : Fin B} {p : Fin S} {nId j : Nat},
      scanTable vv rnd fuel i b p = some (nId, j) → ∃ c, vv c = some nId
  | 0, _, _, _, _, _, hScan => by simp [scanTable] at hScan
  | fuel + 1, i, b, p, nId, j, hScan => by
    unfold scanTable at hScan
    split at hScan
    · rename_i nId' hCell
      obtain ⟨rfl, -⟩ := Prod.mk.inj (Option.some.inj hScan)
      exact ⟨(b, p), hCell⟩
    · exact scanTable_some hScan

omit [LinearOrder N] in
/-- The loop of `Select_` over a table whose every id has an entry fails no
assert; it returns an entry that a cell of the table holds, or is still running
when the fuel ends. -/
theorem selectLoop_spec {B S : Nat} [NeZero B] [NeZero S] (vv : Fin B × Fin S → Option Nat)
    (mapInfo : SortedMap Nat (CAddrInfo N)) (nNow : Int64) (rnd : Nat → Nat)
    (hIds : ∀ c n, vv c = some n → (mapInfo.find? n).isSome) :
    ∀ (fuel i : Nat) (f : Float), ∃ r, selectLoop vv mapInfo nNow rnd fuel i f = some r ∧
      (r = .running ∨ ∃ c nId info, vv c = some nId ∧ mapInfo.find? nId = some info ∧ r = .entry info)
  | 0, _, _ => ⟨_, rfl, Or.inl rfl⟩
  | fuel + 1, i, f => by
    unfold selectLoop
    cases hScan : scanTable vv rnd fuel (i + 2) (Fin.ofNat B (rnd i)) (Fin.ofNat S (rnd (i + 1))) with
    | none => exact ⟨_, rfl, Or.inl rfl⟩
    | some q =>
      obtain ⟨nId, j⟩ := q
      obtain ⟨c, hc⟩ := scanTable_some hScan
      obtain ⟨info, hInfo⟩ := Option.isSome_iff_exists.mp (hIds c nId hc)
      simp only [hInfo]
      split_ifs
      · exact ⟨_, rfl, Or.inr ⟨c, nId, info, hc, hInfo, rfl⟩⟩
      · exact selectLoop_spec vv mapInfo nNow rnd hIds fuel (j + 1) (f * 1.2)

/-- `Select_` from a consistent state fails no assert. It returns the empty
`CAddrInfo()` exactly when there is no entry, or none in the new table and
`newOnly`; otherwise an entry of the table it picked (a new one when
`newOnly`), or it is still running when the fuel ends. -/
theorem select_spec {s : CAddrMan N} (hw : Wf h s) (newOnly : Bool) (nNow : Int64)
    (rnd : Nat → Nat) (fuel : Nat) :
    ∃ r, s.Select_ newOnly nNow rnd fuel = some r ∧
      (r = .empty ↔ s.size = 0 ∨ (newOnly = true ∧ s.nNew = 0)) ∧
      ∀ info, r = .entry info → ∃ nId, s.mapInfo.find? nId = some info ∧
        (newOnly = true → info.fInTried = false) := by
  have hTried : ∀ c n, s.vvTried c = some n → ∃ info, s.mapInfo.find? n = some info ∧
      info.fInTried = true := by
    intro c n hc
    obtain ⟨a, r, hSl, -⟩ := hw.tables.triedCells c n hc
    obtain ⟨info, hF, hI⟩ := find?_of_slotsOf hSl
    exact ⟨info, hF, congrArg (fun e => e.2.1) hI⟩
  have hNew : ∀ c n, s.vvNew c = some n → ∃ info, s.mapInfo.find? n = some info ∧
      info.fInTried = false := by
    intro c n hc
    obtain ⟨a, r, hSl, -⟩ := hw.tables.newCells c n hc
    obtain ⟨info, hF, hI⟩ := find?_of_slotsOf hSl
    exact ⟨info, hF, congrArg (fun e => e.2.1) hI⟩
  unfold CAddrMan.Select_
  split_ifs with hEmpty hNone hPick
  · exact ⟨_, rfl, by simp [hEmpty], fun _ h => by cases h⟩
  · exact ⟨_, rfl, by simp [hNone], fun _ h => by cases h⟩
  · obtain ⟨r, hr, hOut⟩ := selectLoop_spec s.vvTried s.mapInfo nNow rnd
      (fun c n hc => by obtain ⟨i, hi, -⟩ := hTried c n hc; simp [hi]) fuel 1 1.0
    refine ⟨r, hr, ?_, ?_⟩
    · rcases hOut with rfl | ⟨_, _, _, -, -, rfl⟩ <;> simp_all
    · intro info hInfo
      rcases hOut with rfl | ⟨c, nId, info', hc, hF, rfl⟩
      · cases hInfo
      · obtain rfl := Selected.entry.inj hInfo
        refine ⟨nId, hF, fun hOnly => ?_⟩
        simp [hOnly] at hPick
  · obtain ⟨r, hr, hOut⟩ := selectLoop_spec s.vvNew s.mapInfo nNow rnd
      (fun c n hc => by obtain ⟨i, hi, -⟩ := hNew c n hc; simp [hi]) fuel 1 1.0
    refine ⟨r, hr, ?_, ?_⟩
    · rcases hOut with rfl | ⟨_, _, _, -, -, rfl⟩ <;> simp_all
    · intro info hInfo
      rcases hOut with rfl | ⟨c, nId, info', hc, hF, rfl⟩
      · cases hInfo
      · obtain rfl := Selected.entry.inj hInfo
        obtain ⟨i, hi, hNewI⟩ := hNew c nId hc
        rw [hF] at hi
        obtain rfl := Option.some.inj hi
        exact ⟨nId, hF, fun _ => hNewI⟩

end FairCoin.Ports.AddrMan
