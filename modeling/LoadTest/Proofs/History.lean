/-
Histories of calls.

A store has values under keys. A call to it concerns one key: it answers with the
value that is there, and leaves another one in its place, or none. So what is there
after a history of calls is what the last call that concerns the key has left
(`KeyedStore.get?_run_of_isLast`), and what a call answers is what the calls before
it have left (`KeyedStore.answer_run`).

The properties of an element are such a store, and so are the transformers of a
registry.
-/

set_option autoImplicit false

namespace LoadTest

/-- States with values under keys, and calls that change one value each. -/
structure KeyedStore (σ ε κ β : Type) [DecidableEq κ] where
  /-- The value under a key. -/
  get? : σ → κ → Option β
  /-- The answer to a call, and the state behind it. -/
  call : σ → ε → Option β × σ
  /-- The key that a call concerns. -/
  key : ε → κ
  /-- The value that a call leaves under its key. -/
  leaves : ε → Option β
  call_fst : ∀ s x, (call s x).1 = get? s (key x)
  get?_call : ∀ s x k, get? (call s x).2 k = if key x = k then leaves x else get? s k

namespace KeyedStore

variable {σ ε κ β : Type} [DecidableEq κ] (K : KeyedStore σ ε κ β)

/-- The answers to calls that are made one after another, and the state behind the last. -/
def run (s : σ) : List ε → List (Option β) × σ
  | [] => ([], s)
  | x :: xs =>
    let first := K.call s x
    let rest := run first.2 xs
    (first.1 :: rest.1, rest.2)

/-- The call is the last that concerns the key. -/
def IsLast (xs : List ε) (k : κ) (x : ε) : Prop :=
  K.key x = k ∧ ∃ before after, xs = before ++ x :: after ∧ ∀ y ∈ after, K.key y ≠ k

@[simp] theorem run_nil (s : σ) : K.run s [] = ([], s) := rfl

theorem run_cons_snd (s : σ) (x : ε) (xs : List ε) :
    (K.run s (x :: xs)).2 = (K.run (K.call s x).2 xs).2 := rfl

theorem run_append_snd (s : σ) (xs ys : List ε) :
    (K.run s (xs ++ ys)).2 = (K.run (K.run s xs).2 ys).2 := by
  induction xs generalizing s with
  | nil => rfl
  | cons x xs ih => exact ih (K.call s x).2

theorem run_concat_snd (s : σ) (xs : List ε) (x : ε) :
    (K.run s (xs ++ [x])).2 = (K.call (K.run s xs).2 x).2 := K.run_append_snd s xs [x]

/-- A call answers with the value that the calls before it have left under its key. -/
theorem answer_run (s : σ) (xs : List ε) (n : Nat) :
    (K.run s xs).1[n]? = xs[n]?.map fun x => K.get? (K.run s (xs.take n)).2 (K.key x) := by
  induction xs generalizing s n with
  | nil => rfl
  | cons x xs ih =>
    cases n with
    | zero => exact congrArg some (K.call_fst s x)
    | succ n => exact ih (K.call s x).2 n

/-! ## What is left under a key -/

variable {K} {s : σ} {xs : List ε} {k : κ}

/-- Calls that concern other keys leave a value as it is. -/
theorem get?_run_of_forall_ne (h : ∀ x ∈ xs, K.key x ≠ k) :
    K.get? (K.run s xs).2 k = K.get? s k := by
  induction xs generalizing s with
  | nil => rfl
  | cons x xs ih =>
    rw [List.forall_mem_cons] at h
    rw [run_cons_snd, ih h.2, get?_call, if_neg h.1]

/-- After a history, a key holds what the last call about it leaves. -/
theorem get?_run_of_isLast {x : ε} (h : K.IsLast xs k x) :
    K.get? (K.run s xs).2 k = K.leaves x := by
  obtain ⟨hkey, before, after, rfl, hafter⟩ := h
  rw [run_append_snd, run_cons_snd, get?_run_of_forall_ne hafter, get?_call, if_pos hkey]

/-- Either no call of a history is about the key, or there is a last one that is. -/
theorem forall_ne_or_exists_isLast (K : KeyedStore σ ε κ β) (xs : List ε) (k : κ) :
    (∀ x ∈ xs, K.key x ≠ k) ∨ ∃ x, K.IsLast xs k x := by
  induction xs with
  | nil => exact .inl fun x hx => absurd hx List.not_mem_nil
  | cons x xs ih =>
    rcases ih with h | ⟨y, hkey, before, after, rfl, hafter⟩
    · by_cases hkey : K.key x = k
      · exact .inr ⟨x, hkey, [], xs, rfl, h⟩
      · exact .inl (List.forall_mem_cons.mpr ⟨hkey, h⟩)
    · exact .inr ⟨y, hkey, x :: before, after, rfl, hafter⟩

/-- A value is there if the last call that concerns the key has left it. -/
theorem get?_run_eq_some_iff (hs : K.get? s k = none) (v : β) :
    K.get? (K.run s xs).2 k = some v ↔ ∃ x, K.IsLast xs k x ∧ K.leaves x = some v := by
  constructor
  · intro h
    rcases K.forall_ne_or_exists_isLast xs k with hne | ⟨x, hx⟩
    · rw [get?_run_of_forall_ne hne, hs] at h
      cases h
    · rw [get?_run_of_isLast hx] at h
      exact ⟨x, hx, h⟩
  · rintro ⟨x, hx, hleaves⟩
    rw [get?_run_of_isLast hx, hleaves]

/-- Calls that leave nothing under a key do not bring a value there. -/
theorem get?_run_eq_none (hs : K.get? s k = none)
    (h : ∀ x ∈ xs, K.key x = k → K.leaves x = none) : K.get? (K.run s xs).2 k = none := by
  induction xs generalizing s with
  | nil => exact hs
  | cons x xs ih =>
    rw [List.forall_mem_cons] at h
    -- no value is there behind the first call either
    refine ih ?_ h.2
    rw [get?_call]
    by_cases hkey : K.key x = k
    · rw [if_pos hkey, h.1 hkey]
    · rw [if_neg hkey, hs]

/-- No value is there if none has ever been left, or none since a call that has left
nothing. -/
theorem get?_run_eq_none_iff (hs : K.get? s k = none) :
    K.get? (K.run s xs).2 k = none
      ↔ (∀ x ∈ xs, K.key x = k → K.leaves x = none)
        ∨ ∃ before x after, xs = before ++ x :: after ∧ K.key x = k ∧ K.leaves x = none
          ∧ ∀ y ∈ after, K.key y = k → K.leaves y = none := by
  constructor
  · intro h
    -- the last call that concerns the key has left nothing, if there is one
    rcases K.forall_ne_or_exists_isLast xs k with hne | ⟨x, hx⟩
    · exact .inl fun x hx hkey => absurd hkey (hne x hx)
    · rw [get?_run_of_isLast hx] at h
      obtain ⟨hkey, before, after, hxs, hafter⟩ := hx
      exact .inr ⟨before, x, after, hxs, hkey, h, fun y hy hkey => absurd hkey (hafter y hy)⟩
  · rintro (h | ⟨before, x, after, rfl, hkey, hleaves, hafter⟩)
    · exact get?_run_eq_none hs h
    · rw [run_append_snd, run_cons_snd]
      refine get?_run_eq_none ?_ hafter
      rw [get?_call, if_pos hkey, hleaves]

end KeyedStore

end LoadTest
