import Mathlib

/-!
# Do-while loops over a list in rounds

The loop

    do { x = *(it++); if (pass(x, m)) break; tick; if (it == end) { it = begin + off; m--; } }
    while (m);

walks a list from a start position and tests each element against a
threshold `m`; at the end of the list it goes back to the offset `off` and
lowers `m`. The counter is an unsigned 32-bit integer, so `m--` at zero wraps
to `2 ^ 32 - 1`, and `tick` updates a variable on every pass that does not
break. One pass (`body`) ends the loop or gives the variables of the next
one; `run` makes passes on fuel, and `Reach` holds the variables the passes
reach.

While the offset and the start lie in the list, every pass dereferences
inside it, and only the first pass can run with `m = 0` (`Reach.inv`). That
pass takes `m` through zero (`wraps`) only when it starts at the last element
and does not break. Otherwise the loop ends within `(m + 1) * length` passes
(`run_ends_within`); on one element that never passes, the wrapped counter
makes it run `2 ^ 32` passes (`run_wrap_single`).

## Main results

* `Reach.inv`, `Reach.wraps`, `Reach.safe` — the iterator stays in the list;
  a pass reached wraps only at the start, which `wraps_zero_iff` decides.
* `rounds_body`, `run_ended` — every pass lowers the measure `rounds` by one.
* `run_ends_within` — the bound `(m + 1) * length`.
* `run_wrap_single` — the wrapped counter on a list of one element.
-/

namespace FairCoin.Verified.RoundLoop

/-- The loop variables: the position from the start of the list, the
counter, and the variable `tick` updates. -/
structure Vars (β : Type) where
  it : Nat
  m : UInt32
  acc : β

/-- How a pass ends. -/
inductive Next (α β : Type)
  /-- `break` at the element. -/
  | stop (x : α) (acc : β)
  /-- `while (m)` found `m = 0`. -/
  | exit (acc : β)
  /-- The variables of the next pass. -/
  | loop (v : Vars β)
  /-- `*it` at or past the end of the list. -/
  | outOfRange

/-- The loop has ended, by `break` or by the test. -/
def Next.ended {α β : Type} : Next α β → Bool
  | .stop _ _ => true
  | .exit _ => true
  | _ => false

section Loop

variable {α β : Type} (xs : List α) (off : Nat) (pass : α → UInt32 → Bool) (tick : β → β)

/-- One pass of the body, then the test `while (m)`. -/
def body (v : Vars β) : Next α β :=
  match xs[v.it]? with
  | none => .outOfRange
  | some x =>
    if pass x v.m then .stop x v.acc
    else if v.it + 1 = xs.length then
      if v.m - 1 ≠ 0 then .loop ⟨off, v.m - 1, tick v.acc⟩ else .exit (tick v.acc)
    else if v.m ≠ 0 then .loop ⟨v.it + 1, v.m, tick v.acc⟩ else .exit (tick v.acc)

/-- At most `fuel` passes; `none` when the loop has not ended by then. -/
def run : Nat → Vars β → Option (Next α β)
  | 0, _ => none
  | fuel + 1, v =>
    match body xs off pass tick v with
    | .loop v' => run fuel v'
    | r => some r

/-- The pass takes `m` through zero: it does not break, reaches the end of the
list, and decrements a zero counter. -/
def wraps (v : Vars β) : Bool :=
  match xs[v.it]? with
  | none => false
  | some x => !pass x v.m && v.it + 1 == xs.length && v.m == 0

/-- A pass from the first element wraps exactly when the list is that
element, the counter is zero, and the element fails the test. -/
theorem wraps_zero_iff (m : UInt32) (b : β) :
    wraps xs pass ⟨0, m, b⟩ = true ↔ m = 0 ∧ ∃ x, xs = [x] ∧ pass x 0 = false := by
  rcases xs with _ | ⟨x, _ | ⟨y, rest⟩⟩
  · simp [wraps]
  · by_cases hm : m = 0
    · simp [wraps, hm]
    · simp [wraps, hm]
  · simp [wraps]

/-- The variables the passes reach from `v₀`. -/
inductive Reach (v₀ : Vars β) : Vars β → Prop
  | start : Reach v₀ v₀
  | step {v v' : Vars β} : Reach v₀ v → body xs off pass tick v = .loop v' → Reach v₀ v'

/-- The passes still to come from `v`: the rest of this round, and a round
from the offset for each unit of the counter above one. -/
def rounds (v : Vars β) : Nat :=
  (xs.length - v.it) + (v.m.toNat - 1) * (xs.length - off)

variable {xs off pass tick}

theorem toNat_ne_zero {m : UInt32} (h : m ≠ 0) : m.toNat ≠ 0 :=
  fun h0 => h (UInt32.toNat_inj.1 h0)

theorem toNat_sub_one {m : UInt32} (h : m ≠ 0) : (m - 1).toNat = m.toNat - 1 := by
  have h1 : (1 : UInt32) ≤ m := by
    rw [UInt32.le_iff_toNat_le]
    have := toNat_ne_zero h
    show 1 ≤ m.toNat
    omega
  rw [UInt32.toNat_sub_of_le _ _ h1]
  rfl

/-- What a pass that goes on does: the element fails the test, `tick` runs,
the counter stays nonzero, and the iterator moves on or wraps to the offset
with the counter lowered. -/
theorem body_loop {v v' : Vars β} (h : body xs off pass tick v = .loop v') :
    ∃ x, xs[v.it]? = some x ∧ pass x v.m = false ∧ v'.acc = tick v.acc ∧ v'.m ≠ 0 ∧
      ((v.it + 1 = xs.length ∧ v'.it = off ∧ v'.m = v.m - 1) ∨
        (v.it + 1 ≠ xs.length ∧ v'.it = v.it + 1 ∧ v'.m = v.m)) := by
  unfold body at h
  split at h
  · cases h
  · next x hx =>
    refine ⟨x, hx, ?_⟩
    by_cases hPass : pass x v.m = true
    · rw [if_pos hPass] at h
      cases h
    rw [if_neg hPass] at h
    by_cases hEnd : v.it + 1 = xs.length
    · rw [if_pos hEnd] at h
      split at h
      · next hm =>
        cases h
        exact ⟨by simpa using hPass, rfl, hm, .inl ⟨hEnd, rfl, rfl⟩⟩
      · cases h
    · rw [if_neg hEnd] at h
      split at h
      · next hm =>
        cases h
        exact ⟨by simpa using hPass, rfl, hm, .inr ⟨hEnd, rfl, rfl⟩⟩
      · cases h

theorem body_ne_outOfRange {v : Vars β} (h : v.it < xs.length) :
    body xs off pass tick v ≠ .outOfRange := by
  unfold body
  rw [List.getElem?_eq_getElem h]
  dsimp only
  split_ifs <;> simp

section Bounds

variable (hOff : off < xs.length)
include hOff

/-- From a start inside the list, the iterator stays inside it, and every pass
after the first runs with a nonzero counter. -/
theorem Reach.inv {v₀ v : Vars β} (hStart : v₀.it < xs.length)
    (h : Reach xs off pass tick v₀ v) : v.it < xs.length ∧ (v = v₀ ∨ v.m ≠ 0) := by
  induction h with
  | start => exact ⟨hStart, .inl rfl⟩
  | step _ hStep ih =>
    obtain ⟨x, hx, -, -, hm, hMove⟩ := body_loop hStep
    refine ⟨?_, .inr hm⟩
    rcases hMove with ⟨-, hIt, -⟩ | ⟨hEnd, hIt, -⟩
    · rw [hIt]
      exact hOff
    · rw [hIt]
      have := ih.1
      omega

/-- A pass reached wraps the counter only if it is the first and starts at zero. -/
theorem Reach.wraps {v₀ v : Vars β} (hStart : v₀.it < xs.length)
    (h : Reach xs off pass tick v₀ v) (hWrap : wraps xs pass v = true) : v = v₀ ∧ v₀.m = 0 := by
  have hm : v.m = 0 := by
    unfold RoundLoop.wraps at hWrap
    split at hWrap
    · cases hWrap
    · simp only [Bool.and_eq_true, Bool.not_eq_true', beq_iff_eq] at hWrap
      exact hWrap.2
  rcases (h.inv hOff hStart).2 with rfl | hNe
  · exact ⟨rfl, hm⟩
  · exact absurd hm hNe

/-- When the first pass does not wrap the counter, no pass reached does, and
each dereferences inside the list. -/
theorem Reach.safe {v₀ v : Vars β} (hStart : v₀.it < xs.length)
    (hNoWrap : RoundLoop.wraps xs pass v₀ = false) (h : Reach xs off pass tick v₀ v) :
    v.it < xs.length ∧ RoundLoop.wraps xs pass v = false := by
  refine ⟨(h.inv hOff hStart).1, ?_⟩
  cases hWrap : RoundLoop.wraps xs pass v with
  | false => rfl
  | true =>
    obtain ⟨rfl, -⟩ := h.wraps hOff hStart hWrap
    rw [hNoWrap] at hWrap
    cases hWrap

omit hOff in
/-- A pass that goes on lowers `rounds` by one. -/
theorem rounds_body {v v' : Vars β} (hIt : v.it < xs.length) (hm : v.m ≠ 0)
    (h : body xs off pass tick v = .loop v') : rounds xs off v' + 1 = rounds xs off v := by
  obtain ⟨x, -, -, -, hm', hMove⟩ := body_loop h
  unfold rounds
  rcases hMove with ⟨hEnd, hIt', hmv⟩ | ⟨hEnd, hIt', hmv⟩
  · -- The end of the list: a whole round from the offset for the lowered counter.
    rw [hmv] at hm'
    rw [hIt', hmv, toNat_sub_one hm]
    have hPos : (v.m - 1).toNat ≠ 0 := toNat_ne_zero hm'
    rw [toNat_sub_one hm] at hPos
    have hRound : (v.m.toNat - 1) * (xs.length - off) =
        (v.m.toNat - 1 - 1) * (xs.length - off) + (xs.length - off) := by
      rw [← Nat.succ_mul, Nat.succ_eq_add_one, Nat.sub_add_cancel (by omega)]
    omega
  · rw [hIt', hmv]
    omega

/-- The loop ends within `rounds` passes from any variables inside the list
with a nonzero counter. -/
theorem run_ended :
    ∀ (fuel : Nat) (v : Vars β), v.it < xs.length → v.m ≠ 0 → rounds xs off v ≤ fuel →
      ∃ r, run xs off pass tick fuel v = some r ∧ r.ended = true := by
  intro fuel
  induction fuel with
  | zero =>
    intro v hIt _ hLe
    unfold rounds at hLe
    omega
  | succ fuel ih =>
    intro v hIt hm hLe
    have hRange : body xs off pass tick v ≠ .outOfRange := body_ne_outOfRange hIt
    unfold run
    cases hBody : body xs off pass tick v with
    | stop x acc => exact ⟨_, rfl, rfl⟩
    | exit acc => exact ⟨_, rfl, rfl⟩
    | loop v' =>
      have hRounds := rounds_body hIt hm hBody
      obtain ⟨-, -, -, -, hm', hMove⟩ := body_loop hBody
      have hIt' : v'.it < xs.length := by
        rcases hMove with ⟨-, h', -⟩ | ⟨hEnd, h', -⟩
        · rw [h']
          exact hOff
        · rw [h']
          omega
      exact ih v' hIt' hm' (by omega)
    | outOfRange => exact absurd hBody hRange

theorem rounds_le {v : Vars β} (hm : v.m ≠ 0) : rounds xs off v ≤ v.m.toNat * xs.length := by
  obtain ⟨k, hk⟩ : ∃ k, v.m.toNat = k + 1 := ⟨v.m.toNat - 1, by have := toNat_ne_zero hm; omega⟩
  have hRound : k * (xs.length - off) ≤ k * xs.length := Nat.mul_le_mul_left k (Nat.sub_le _ _)
  unfold rounds
  rw [hk, Nat.add_sub_cancel, Nat.succ_mul]
  omega

/-- Unless its first pass wraps the counter, the loop ends within
`(m + 1) * length` passes. -/
theorem run_ends_within {v₀ : Vars β} (hStart : v₀.it < xs.length)
    (hNoWrap : wraps xs pass v₀ = false) :
    ∃ r, run xs off pass tick ((v₀.m.toNat + 1) * xs.length) v₀ = some r ∧ r.ended = true := by
  by_cases hm : v₀.m = 0
  · -- A first pass at zero breaks, or fails the test `while (m)`.
    obtain ⟨n, hn⟩ : ∃ n, (v₀.m.toNat + 1) * xs.length = n + 1 := by
      rw [hm]
      exact ⟨xs.length - 1, by simp only [UInt32.toNat_zero]; omega⟩
    rw [hn]
    unfold RoundLoop.wraps at hNoWrap
    unfold run body
    rw [List.getElem?_eq_getElem hStart] at hNoWrap ⊢
    dsimp only at hNoWrap ⊢
    by_cases hPass : pass xs[v₀.it] v₀.m = true
    · rw [if_pos hPass]
      exact ⟨_, rfl, rfl⟩
    · have hPass0 : pass xs[v₀.it] 0 = false := by simpa [hm] using hPass
      have hEnd : v₀.it + 1 ≠ xs.length := by
        intro hEnd
        simp [hPass0, hEnd, hm] at hNoWrap
      rw [if_neg hPass, if_neg hEnd, if_neg (by simpa using hm)]
      exact ⟨_, rfl, rfl⟩
  · refine run_ended hOff _ v₀ hStart hm ?_
    have := rounds_le hOff (v := v₀) hm
    rw [Nat.succ_mul]
    omega

end Bounds

/-! ## One element that never passes -/

section Single

variable {x : α} (hFail : ∀ m, pass x m = false)
include hFail

theorem run_single (hOff : off = 0) :
    ∀ (k : Nat) (v : Vars β), v.it = 0 → v.m.toNat = k + 1 →
      run [x] off pass tick (k + 1) v = some (.exit (Nat.iterate tick (k + 1) v.acc)) ∧
        run [x] off pass tick k v = none := by
  intro k
  induction k with
  | zero =>
    intro v hIt hm
    have hOne : v.m - 1 = 0 := by
      apply UInt32.toNat_inj.1
      rw [toNat_sub_one (fun h0 => by rw [h0] at hm; cases hm), hm]
      rfl
    refine ⟨?_, rfl⟩
    simp [run, body, hIt, hFail, hOne]
  | succ k ih =>
    intro v hIt hm
    have hNe : v.m ≠ 0 := fun h0 => by rw [h0] at hm; cases hm
    have hNext : (v.m - 1).toNat = k + 1 := by rw [toNat_sub_one hNe, hm]; rfl
    have hNe' : v.m - 1 ≠ 0 := fun h0 => by rw [h0] at hNext; cases hNext
    have hBody : body [x] off pass tick v = .loop ⟨0, v.m - 1, tick v.acc⟩ := by
      simp [body, hIt, hFail, hNe', hOff]
    obtain ⟨hEnds, hNone⟩ := ih ⟨0, v.m - 1, tick v.acc⟩ rfl hNext
    constructor
    · rw [run, hBody]
      dsimp only
      rw [hEnds]
      rfl
    · rw [run, hBody]
      exact hNone

/-- Starting at zero, the first pass wraps the counter to `2 ^ 32 - 1`, and
the loop ends only after `2 ^ 32` passes. -/
theorem run_wrap_single (hOff : off = 0) (b : β) :
    wraps [x] pass ⟨0, 0, b⟩ = true ∧ run [x] off pass tick (2 ^ 32 - 1) ⟨0, 0, b⟩ = none ∧
      run [x] off pass tick (2 ^ 32) ⟨0, 0, b⟩ = some (.exit (Nat.iterate tick (2 ^ 32) b)) := by
  have hBody : body [x] off pass tick ⟨0, 0, b⟩ = .loop ⟨0, 0 - 1, tick b⟩ := by
    simp [body, hFail, hOff]
  have hWrapped : (0 - 1 : UInt32).toNat = 2 ^ 32 - 2 + 1 := by decide
  obtain ⟨hEnds, hNone⟩ := run_single hFail hOff (2 ^ 32 - 2) ⟨0, 0 - 1, tick b⟩ rfl hWrapped
  refine ⟨by simp [RoundLoop.wraps, hFail], ?_, ?_⟩
  · rw [show 2 ^ 32 - 1 = (2 ^ 32 - 2) + 1 from rfl, run, hBody]
    exact hNone
  · rw [show 2 ^ 32 = (2 ^ 32 - 2 + 1) + 1 from rfl, run, hBody]
    dsimp only
    rw [hEnds]
    conv_rhs => rw [Function.iterate_succ_apply]

end Single

end Loop

end FairCoin.Verified.RoundLoop
