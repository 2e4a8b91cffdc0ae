import Mathlib
import FairCoin.Verified.ParentLinks

/-!
# Block index entries and their skip pointers (`chain.cpp`)

Each `CBlockIndex` points to its parent (`pprev`) and to an ancestor further
back (`pskip`), which `BuildSkip` sets to the ancestor at
`GetSkipHeight(nHeight)`. `GetAncestor` walks back to a height and takes the
skip pointer where that does not pass the height.

A pointer is the position of an entry in the list of the entries allocated
so far, in the order `AddToBlockIndex` (`main.cpp`) allocates them; `NULL` is
`none`. Of an entry the model keeps the three fields these functions read. A
read through a pointer to no entry and a failed `assert` are `none`.

## Main results

* `ancestorWalk_eq`, `GetAncestor_eq` — in a well-formed index the skip walk
  never fails its `assert` and ends where the walk along `pprev` alone ends.
* `AddToBlockIndex_wf` — a call that adds an entry linked to an existing parent
  succeeds and keeps the index well formed.
* `Built.wf`, `Built.GetAncestor_fault_free` — over every run of such calls
  from an empty index.
-/

namespace FairCoin.Ports.Chain

open FairCoin.Verified.ParentLinks

/-- The fields of `CBlockIndex` that `chain.cpp` reads. -/
structure CBlockIndex where
  pprev : Option Nat
  pskip : Option Nat
  nHeight : Nat
  deriving DecidableEq, Repr

/-- `pindex->pprev` for the entry at `p`; nothing for a pointer to no entry. -/
def parentOf (heap : List CBlockIndex) (p : Nat) : Option Nat := heap[p]? >>= CBlockIndex.pprev

/-- `pindex->nHeight` for the entry at `p`. -/
def heightOf (heap : List CBlockIndex) (p : Nat) : Nat := (heap[p]?.map CBlockIndex.nHeight).getD 0

/-- `InvertLowestOne(n)`: the lowest set bit cleared. -/
def InvertLowestOne (n : Nat) : Nat := n &&& (n - 1)

/-- `GetSkipHeight(height)`: the height that `pskip` jumps back to. -/
def GetSkipHeight (height : Nat) : Nat :=
  if height < 2 then 0
  else if height &&& 1 != 0 then InvertLowestOne (InvertLowestOne (height - 1)) + 1
  else InvertLowestOne height

theorem InvertLowestOne_le (n : Nat) : InvertLowestOne n ≤ n := Nat.and_le_left

theorem InvertLowestOne_lt {n : Nat} (hn : 0 < n) : InvertLowestOne n < n :=
  lt_of_le_of_lt Nat.and_le_right (by omega)

/-- `pskip` points strictly lower, so every step of `GetAncestor` goes down. -/
theorem GetSkipHeight_lt {height : Nat} (h : 0 < height) : GetSkipHeight height < height := by
  unfold GetSkipHeight
  split_ifs with h₂ hOdd
  · exact h
  · have := InvertLowestOne_le (InvertLowestOne (height - 1))
    have := InvertLowestOne_lt (show 0 < height - 1 by omega)
    omega
  · exact InvertLowestOne_lt h

/-- The loop of `GetAncestor(height)`: `pindexWalk`, at `heightWalk`, goes back
by `pskip` where that lands at `height` or above it and `pprev->pskip` would
not do better, and by `pprev` otherwise. -/
def ancestorWalk (heap : List CBlockIndex) (height : Nat) (pindexWalk heightWalk : Nat) :
    Option Nat :=
  if height < heightWalk then
    match heap[pindexWalk]? with
    | none => none
    | some walk =>
      let heightSkip := GetSkipHeight heightWalk
      let heightSkipPrev := GetSkipHeight (heightWalk - 1)
      match walk.pskip, decide (heightSkip = height ∨ (heightSkip > height ∧
          ¬((heightSkipPrev : Int) < (heightSkip : Int) - 2 ∧ heightSkipPrev ≥ height))) with
      | some pskip, true => ancestorWalk heap height pskip heightSkip
      | _, _ =>
        match walk.pprev with
        -- `assert(pindexWalk->pprev)`
        | none => none
        | some pprev => ancestorWalk heap height pprev (heightWalk - 1)
  else some pindexWalk
termination_by heightWalk
decreasing_by
  · exact GetSkipHeight_lt (by omega)
  · omega

/-- `CBlockIndex::GetAncestor(height)` of the entry at `p`; `some none` is
`NULL`. -/
def GetAncestor (heap : List CBlockIndex) (p : Nat) (height : Int) : Option (Option Nat) :=
  match heap[p]? with
  | none => none
  | some index =>
    if height > index.nHeight ∨ height < 0 then some none
    else (ancestorWalk heap height.toNat p index.nHeight).map some

/-- `CBlockIndex::BuildSkip()` on the entry at `p`: `pskip` becomes the
ancestor of `pprev` at `GetSkipHeight(nHeight)`. -/
def BuildSkip (heap : List CBlockIndex) (p : Nat) : Option (List CBlockIndex) :=
  match heap[p]? with
  | none => none
  | some index =>
    match index.pprev with
    | none => some heap
    | some pprev =>
      (GetAncestor heap pprev (GetSkipHeight index.nHeight)).map fun pskip =>
        heap.set p { index with pskip }

/-- The links `AddToBlockIndex` gives a new entry: a fresh `CBlockIndex` at the
end, and, where `mapBlockIndex` knows the parent (`miPrev`), its `pprev`, a
height one above the parent's, and `BuildSkip`. -/
def AddToBlockIndex (heap : List CBlockIndex) (miPrev : Option Nat) : Option (List CBlockIndex) :=
  let pindexNew := heap.length
  let heap := heap ++ [⟨none, none, 0⟩]
  match miPrev with
  | none => some heap
  | some pprev =>
    match heap[pprev]? with
    | none => none
    | some prev => BuildSkip (heap.set pindexNew ⟨some pprev, none, prev.nHeight + 1⟩) pindexNew

/-! ## The index is well formed -/

/-- What `AddToBlockIndex` and `BuildSkip` keep: a parent is an entry one
below, an entry without one is at height zero, and `pskip`, where set, is the
ancestor at `GetSkipHeight(nHeight)`. -/
structure WF (heap : List CBlockIndex) : Prop where
  pprev : ∀ (p : Nat) (index : CBlockIndex) (q : Nat), heap[p]? = some index →
    index.pprev = some q → ∃ prev, heap[q]? = some prev ∧ prev.nHeight + 1 = index.nHeight
  root : ∀ (p : Nat) (index : CBlockIndex), heap[p]? = some index → index.pprev = none →
    index.nHeight = 0
  pskip : ∀ (p : Nat) (index : CBlockIndex) (s : Nat), heap[p]? = some index → index.pskip = some s →
    up (parentOf heap) (index.nHeight - GetSkipHeight index.nHeight) p = some s

section WF

variable {heap : List CBlockIndex} (hw : WF heap)
include hw

theorem WF.graded : Graded (parentOf heap) (heightOf heap) where
  succ p q hq := by
    obtain ⟨index, hp, hprev⟩ := Option.bind_eq_some_iff.mp hq
    obtain ⟨prev, hq', hh⟩ := hw.pprev p index q hp hprev
    simp [heightOf, hp, hq', hh]
  root p hp := by
    cases hIdx : heap[p]? with
    | none => simp [heightOf, hIdx]
    | some index =>
      have hNone : index.pprev = none := by simpa [parentOf, hIdx] using hp
      simp [heightOf, hIdx, hw.root p index hIdx hNone]

/-- The walk from an entry only meets entries. -/
theorem WF.up_valid {k p q : Nat} (hp : p < heap.length) (hq : up (parentOf heap) k p = some q) :
    q < heap.length := by
  induction k generalizing q with
  | zero =>
    obtain rfl : p = q := Option.some.inj hq
    exact hp
  | succ k ih =>
    rw [up_succ] at hq
    obtain ⟨r, hr, hrq⟩ := Option.bind_eq_some_iff.mp hq
    obtain ⟨index, hIdx, hprev⟩ := Option.bind_eq_some_iff.mp hrq
    obtain ⟨prev, hq', -⟩ := hw.pprev r index q hIdx hprev
    exact (List.getElem?_eq_some_iff.mp hq').1

end WF

/-- The height of an entry, read through its pointer. -/
theorem heightOf_of_getElem? {heap : List CBlockIndex} {p : Nat} {index : CBlockIndex}
    (h : heap[p]? = some index) : heightOf heap p = index.nHeight := by
  simp [heightOf, h]

/-- The skip walk from an entry ends at the ancestor at `height` by `pprev`
links. The induction is on `heightWalk`; a jump by `pskip` composes with the
rest of the walk by `up_add`. -/
theorem ancestorWalk_eq {heap : List CBlockIndex} (hw : WF heap) (height : Nat) :
    ∀ heightWalk p, p < heap.length → heightOf heap p = heightWalk → height ≤ heightWalk →
      ancestorWalk heap height p heightWalk = up (parentOf heap) (heightWalk - height) p := by
  intro heightWalk
  induction heightWalk using Nat.strong_induction_on with
  | _ heightWalk ih =>
    intro p hp hH hLe
    obtain ⟨walk, hWalk⟩ : ∃ walk, heap[p]? = some walk := ⟨_, List.getElem?_eq_getElem hp⟩
    have hWalkH : walk.nHeight = heightWalk := by rw [← heightOf_of_getElem? hWalk, hH]
    rcases Nat.eq_or_lt_of_le hLe with rfl | hLt
    · rw [ancestorWalk, if_neg (lt_irrefl _), Nat.sub_self, up_zero]
    have hPrev : ∃ pprev, walk.pprev = some pprev ∧
        ancestorWalk heap height pprev (heightWalk - 1) =
          up (parentOf heap) (heightWalk - height) p := by
      cases hpp : walk.pprev with
      | none =>
        have := hw.root p walk hWalk hpp
        omega
      | some pprev =>
        obtain ⟨prev, hPrevIdx, hPrevH⟩ := hw.pprev p walk pprev hWalk hpp
        have hpv : pprev < heap.length := (List.getElem?_eq_some_iff.mp hPrevIdx).1
        refine ⟨pprev, rfl, ?_⟩
        rw [ih (heightWalk - 1) (by omega) pprev hpv
          (by rw [heightOf_of_getElem? hPrevIdx]; omega) (by omega)]
        have hStep : up (parentOf heap) 1 p = some pprev := by
          simp [up_one, parentOf, hWalk, hpp]
        have hSplit := up_add (parentOf heap) 1 (heightWalk - 1 - height) p
        rw [hStep, show 1 + (heightWalk - 1 - height) = heightWalk - height by omega] at hSplit
        exact hSplit.symm
    obtain ⟨pprev, hpp, hPrevEq⟩ := hPrev
    rw [ancestorWalk, if_pos hLt, hWalk]
    dsimp only
    split
    · -- the jump by `pskip`
      rename_i pskip hSkip hCond
      have hCond' := of_decide_eq_true hCond
      have hSkipLt := GetSkipHeight_lt (show 0 < heightWalk by omega)
      have hUp := hw.pskip p walk pskip hWalk hSkip
      rw [hWalkH] at hUp
      have hSkipH : heightOf heap pskip = GetSkipHeight heightWalk := by
        have := height_up hw.graded hUp
        omega
      have hSkipLe : height ≤ GetSkipHeight heightWalk := by omega
      have hSplit := up_add (parentOf heap) (heightWalk - GetSkipHeight heightWalk)
        (GetSkipHeight heightWalk - height) p
      rw [hUp, show heightWalk - GetSkipHeight heightWalk + (GetSkipHeight heightWalk - height) =
        heightWalk - height by omega] at hSplit
      rw [ih _ hSkipLt pskip (hw.up_valid hp hUp) hSkipH hSkipLe, hSplit]
      rfl
    · rw [hpp]
      exact hPrevEq

/-- The ancestor of `p` at `height` by `pprev` links alone, as `GetAncestor`
promises it: nothing outside `0 ≤ height ≤ nHeight`. -/
def ancestorAt (heap : List CBlockIndex) (p : Nat) (height : Int) : Option Nat :=
  if height > heightOf heap p ∨ height < 0 then none
  else up (parentOf heap) (heightOf heap p - height.toNat) p

theorem GetAncestor_of_wf {heap : List CBlockIndex} (hw : WF heap) {p : Nat}
    (hp : p < heap.length) (height : Int) :
    GetAncestor heap p height = some (ancestorAt heap p height) := by
  obtain ⟨index, hIdx⟩ : ∃ index, heap[p]? = some index := ⟨_, List.getElem?_eq_getElem hp⟩
  have hH := heightOf_of_getElem? hIdx
  unfold GetAncestor ancestorAt
  rw [hIdx, hH]
  dsimp only
  split_ifs with hOut
  · rfl
  · -- below the entry's height the `pprev` walk reaches an entry, so the map keeps it
    obtain ⟨b, hb⟩ := exists_up hw.graded (k := index.nHeight - height.toNat) (a := p)
      (by omega)
    rw [ancestorWalk_eq hw height.toNat index.nHeight p hp hH (by omega), hb]
    rfl

/-! ## `AddToBlockIndex` keeps the index well formed -/

/-- What `WF` asks of an entry appended after `heap`. -/
structure Fits (heap : List CBlockIndex) (e : CBlockIndex) : Prop where
  pprev : ∀ q, e.pprev = some q → ∃ prev, heap[q]? = some prev ∧ prev.nHeight + 1 = e.nHeight
  root : e.pprev = none → e.nHeight = 0
  pskip : ∀ s, e.pskip = some s → ∃ q, e.pprev = some q ∧
    up (parentOf heap) (e.nHeight - 1 - GetSkipHeight e.nHeight) q = some s

theorem getElem?_append_singleton {heap : List CBlockIndex} {e index : CBlockIndex} {p : Nat}
    (h : (heap ++ [e])[p]? = some index) :
    (p < heap.length ∧ heap[p]? = some index) ∨ (p = heap.length ∧ index = e) := by
  rcases Nat.lt_or_ge p heap.length with hp | hp
  · rw [List.getElem?_append_left hp] at h
    exact Or.inl ⟨hp, h⟩
  · rw [List.getElem?_append_right hp, List.getElem?_singleton] at h
    split_ifs at h with hz
    exact Or.inr ⟨by omega, (Option.some.inj h).symm⟩

theorem getElem?_append_of_getElem? {heap : List CBlockIndex} {e index : CBlockIndex} {q : Nat}
    (h : heap[q]? = some index) : (heap ++ [e])[q]? = some index := by
  rw [List.getElem?_append_left (List.getElem?_eq_some_iff.mp h).1, h]

theorem parentOf_append_length (heap : List CBlockIndex) (e : CBlockIndex) :
    parentOf (heap ++ [e]) heap.length = e.pprev := by
  simp [parentOf]

theorem set_append_length (heap : List CBlockIndex) (e e' : CBlockIndex) :
    (heap ++ [e]).set heap.length e' = heap ++ [e'] := by
  simp

/-- The parent link of an entry appended under `pprev`: an entry one below. -/
theorem link_fits {heap : List CBlockIndex} {pprev : Nat} {prev : CBlockIndex} (hPrevIdx : heap[pprev]? = some prev) :
    ∀ q, some pprev = some q → ∃ prev', heap[q]? = some prev' ∧ prev'.nHeight + 1 = prev.nHeight + 1 := by
  rintro q ⟨⟩
  exact ⟨prev, hPrevIdx, rfl⟩

section Append

variable {heap : List CBlockIndex} (hw : WF heap)
include hw

/-- Walks from the old entries never reach the appended one. -/
theorem WF.up_append (e : CBlockIndex) (k : Nat) {p : Nat} (hp : p < heap.length) :
    up (parentOf (heap ++ [e])) k p = up (parentOf heap) k p := by
  refine (up_congr k fun i b hb => ?_).symm
  rw [parentOf, parentOf, List.getElem?_append_left (hw.up_valid hp hb)]

/-- Appending an entry that fits keeps the index well formed. -/
theorem WF.append {e : CBlockIndex} (he : Fits heap e) : WF (heap ++ [e]) where
  pprev p index q h hq := by
    rcases getElem?_append_singleton h with ⟨-, h⟩ | ⟨-, rfl⟩
    · obtain ⟨prev, hPrev, hH⟩ := hw.pprev p index q h hq
      exact ⟨prev, getElem?_append_of_getElem? hPrev, hH⟩
    · obtain ⟨prev, hPrev, hH⟩ := he.pprev q hq
      exact ⟨prev, getElem?_append_of_getElem? hPrev, hH⟩
  root p index h hNone := by
    rcases getElem?_append_singleton h with ⟨-, h⟩ | ⟨-, rfl⟩
    · exact hw.root p index h hNone
    · exact he.root hNone
  pskip p index s h hs := by
    rcases getElem?_append_singleton h with ⟨hp, h⟩ | ⟨rfl, rfl⟩
    · rw [hw.up_append e _ hp]
      exact hw.pskip p index s h hs
    · obtain ⟨q, hq, hUp⟩ := he.pskip s hs
      obtain ⟨prev, hPrev, hH⟩ := he.pprev q hq
      have hSkip := GetSkipHeight_lt (show 0 < index.nHeight by omega)
      have hSplit := up_add (parentOf (heap ++ [index])) 1
        (index.nHeight - 1 - GetSkipHeight index.nHeight) heap.length
      rw [show 1 + (index.nHeight - 1 - GetSkipHeight index.nHeight) =
        index.nHeight - GetSkipHeight index.nHeight by omega, up_one,
        parentOf_append_length, hq] at hSplit
      rw [hSplit, Option.bind_some,
        hw.up_append index _ (List.getElem?_eq_some_iff.mp hPrev).1]
      exact hUp

/-- `AddToBlockIndex` under a parent that is an entry appends the entry one
above it, with `pskip` the ancestor of `pprev` at `GetSkipHeight(nHeight)`. -/
theorem WF.AddToBlockIndex_of_prev {pprev : Nat} {prev : CBlockIndex}
    (hPrevIdx : heap[pprev]? = some prev) :
    AddToBlockIndex heap (some pprev) = some (heap ++ [⟨some pprev, ancestorAt (heap ++
      [⟨some pprev, none, prev.nHeight + 1⟩]) pprev (GetSkipHeight (prev.nHeight + 1)),
        prev.nHeight + 1⟩]) := by
  have hq : pprev < heap.length := (List.getElem?_eq_some_iff.mp hPrevIdx).1
  have hw₂ : WF (heap ++ [⟨some pprev, none, prev.nHeight + 1⟩]) :=
    hw.append ⟨link_fits hPrevIdx, nofun, nofun⟩
  have hAnc := GetAncestor_of_wf hw₂ (p := pprev) (by simp; omega)
    (GetSkipHeight (prev.nHeight + 1))
  simp only [AddToBlockIndex, getElem?_append_of_getElem? hPrevIdx, set_append_length,
    BuildSkip, List.getElem?_concat_length, hAnc, Option.map_some]

/-- `AddToBlockIndex` with no parent, or with a parent that is an entry,
succeeds and keeps the index well formed. -/
theorem AddToBlockIndex_wf {miPrev : Option Nat} (hPrev : ∀ q ∈ miPrev, q < heap.length) :
    ∃ heap', AddToBlockIndex heap miPrev = some heap' ∧ WF heap' := by
  cases miPrev with
  | none =>
    have hFits : Fits heap ⟨none, none, 0⟩ := ⟨nofun, fun _ => rfl, nofun⟩
    exact ⟨_, rfl, hw.append hFits⟩
  | some pprev =>
    have hq := hPrev pprev rfl
    obtain ⟨prev, hPrevIdx⟩ : ∃ prev, heap[pprev]? = some prev := ⟨_, List.getElem?_eq_getElem hq⟩
    have hSkipUp : ∀ s, ancestorAt (heap ++ [⟨some pprev, none, prev.nHeight + 1⟩]) pprev
        (GetSkipHeight (prev.nHeight + 1)) = some s →
        up (parentOf heap) (prev.nHeight + 1 - 1 - GetSkipHeight (prev.nHeight + 1)) pprev =
          some s := by
      intro s hs
      have hSkip := GetSkipHeight_lt (show 0 < prev.nHeight + 1 by omega)
      have hH := heightOf_of_getElem? (getElem?_append_of_getElem?
        (e := ⟨some pprev, none, prev.nHeight + 1⟩) hPrevIdx)
      rw [ancestorAt, hH, if_neg (by omega), hw.up_append _ _ hq] at hs
      simpa using hs
    have hFits : Fits heap ⟨some pprev, ancestorAt (heap ++ [⟨some pprev, none, prev.nHeight + 1⟩])
        pprev (GetSkipHeight (prev.nHeight + 1)), prev.nHeight + 1⟩ :=
      ⟨link_fits hPrevIdx, nofun, fun s hs => ⟨pprev, rfl, hSkipUp s hs⟩⟩
    exact ⟨_, hw.AddToBlockIndex_of_prev hPrevIdx, hw.append hFits⟩

end Append

/-- The indexes that `AddToBlockIndex` builds from an empty one, each parent
taken from `mapBlockIndex`, which holds only entries. -/
inductive Built : List CBlockIndex → Prop
  | nil : Built []
  | add {heap heap' : List CBlockIndex} {miPrev : Option Nat} : Built heap →
      (∀ q ∈ miPrev, q < heap.length) → AddToBlockIndex heap miPrev = some heap' → Built heap'

theorem wf_nil : WF [] where
  pprev _ _ _ h := by simp at h
  root _ _ h := by simp at h
  pskip _ _ _ h := by simp at h

/-- Every index that `AddToBlockIndex` builds is well formed; the induction is
on the calls, each kept by `AddToBlockIndex_wf`. -/
theorem Built.wf {heap : List CBlockIndex} (hb : Built heap) : WF heap := by
  induction hb with
  | nil => exact wf_nil
  | add _ hPrev hAdd ih =>
    obtain ⟨heap'', hEq, hw⟩ := AddToBlockIndex_wf ih hPrev
    rw [hAdd] at hEq
    exact Option.some.inj hEq ▸ hw

/-- In a well-formed index `GetAncestor` never fails its `assert`, and its
walk, which jumps by `pskip`, ends where the walk along `pprev` alone ends. -/
theorem GetAncestor_eq {heap : List CBlockIndex} (hw : WF heap) {p : Nat} (hp : p < heap.length)
    (height : Int) : GetAncestor heap p height = some (ancestorAt heap p height) :=
  GetAncestor_of_wf hw hp height

/-- A genesis entry and its child, linked as `AddToBlockIndex` links them: the
child's ancestor at height zero is the genesis entry. -/
theorem GetAncestor_genesis_child :
    GetAncestor [⟨none, none, 0⟩, ⟨some 0, some 0, 1⟩] 1 0 = some (some 0) := by
  have hw : WF [⟨none, none, 0⟩, ⟨some 0, some 0, 1⟩] :=
    (wf_nil.append (e := ⟨none, none, 0⟩) ⟨nofun, fun _ => rfl, nofun⟩).append
      ⟨by rintro q ⟨⟩; exact ⟨_, rfl, rfl⟩, nofun, by rintro s ⟨⟩; exact ⟨0, rfl, rfl⟩⟩
  rw [GetAncestor_eq hw (by decide) 0]
  decide

/-- On every index built by `AddToBlockIndex`, `GetAncestor` on any entry
never fails its `assert` and returns the ancestor along `pprev`. -/
theorem Built.GetAncestor_fault_free {heap : List CBlockIndex} (hb : Built heap) {p : Nat}
    (hp : p < heap.length) (height : Int) :
    GetAncestor heap p height = some (ancestorAt heap p height) :=
  GetAncestor_of_wf hb.wf hp height

/-- A call of `AddToBlockIndex` under an entry of a built index, its `pskip`
named. -/
theorem Built.link {heap : List CBlockIndex} (hb : Built heap) (pprev : Nat) (pskip : Option Nat)
    {prev : CBlockIndex} (hPrevIdx : heap[pprev]? = some prev)
    (hSkip : ancestorAt (heap ++ [⟨some pprev, none, prev.nHeight + 1⟩]) pprev
      (GetSkipHeight (prev.nHeight + 1)) = pskip) :
    Built (heap ++ [⟨some pprev, pskip, prev.nHeight + 1⟩]) := by
  subst hSkip
  refine .add hb (fun q hq => ?_) (hb.wf.AddToBlockIndex_of_prev hPrevIdx)
  cases hq
  exact (List.getElem?_eq_some_iff.mp hPrevIdx).1

/-- Seven entries in a line, the entry at height `h` skipping to height
`GetSkipHeight h`: `3` and `5` to `1`, `6` to `4`, the others to `0`. -/
def sevenBlocks : List CBlockIndex :=
  [⟨none, none, 0⟩, ⟨some 0, some 0, 1⟩, ⟨some 1, some 0, 2⟩, ⟨some 2, some 1, 3⟩,
    ⟨some 3, some 0, 4⟩, ⟨some 4, some 1, 5⟩, ⟨some 5, some 4, 6⟩]

/-- `AddToBlockIndex` builds `sevenBlocks`, each entry under the one before. -/
theorem built_sevenBlocks : Built sevenBlocks :=
  have b₁ : Built [⟨none, none, 0⟩] := @Built.add [] _ none Built.nil nofun rfl
  ((((((b₁.link 0 (some 0) rfl (by decide)).link 1 (some 0) rfl (by decide)).link 2 (some 1) rfl
    (by decide)).link 3 (some 0) rfl (by decide)).link 4 (some 1) rfl (by decide)).link 5 (some 4)
      rfl (by decide))

/-- From height 6 the walk to height 4 jumps by `pskip`, past `pprev`, and the
walk to height 1 takes `pprev` and then the jump from 5 to 1. -/
theorem GetAncestor_sevenBlocks :
    GetAncestor sevenBlocks 6 4 = some (some 4) ∧ GetAncestor sevenBlocks 6 1 = some (some 1) := by
  rw [Built.GetAncestor_fault_free built_sevenBlocks (by decide) 4,
    Built.GetAncestor_fault_free built_sevenBlocks (by decide) 1]
  decide

end FairCoin.Ports.Chain
