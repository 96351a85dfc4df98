import Mathlib.Algebra.BigOperators.Group.List.Basic
import Mathlib.Data.List.Induction
import Mathlib.Data.List.Nodup

/-!
# Dictionaries — insertion order, one value a key

A Python `dict`: iteration follows the order in which keys were first set, and
setting a key again replaces its value in place. `items_set` is the one fact all
others come from.

The last section is about dictionaries of lists filled from a list of pairs:
`filter_ofList_perm` says when nothing is lost in that, `kept_of_length_eq` that
no other case gets by.
-/

/-- The items in insertion order; no key twice. -/
@[ext] structure Dict (κ υ : Type) where
  items : List (κ × υ)
  nodup : (items.map Prod.fst).Nodup

namespace Dict

variable {κ υ : Type} [DecidableEq κ]

def empty : Dict κ υ := ⟨[], List.nodup_nil⟩

/-- `d.get(key)`, or the item of a list of pairs. -/
def lookup (k : κ) : List (κ × υ) → Option υ
  | [] => none
  | (k', v) :: rest => if k' = k then some v else lookup k rest

def get? (d : Dict κ υ) (k : κ) : Option υ := lookup k d.items

/-- Replace the value of `k`, or put it at the end. -/
def assign (k : κ) (v : υ) : List (κ × υ) → List (κ × υ)
  | [] => [(k, v)]
  | (k', v') :: rest => if k' = k then (k, v) :: rest else (k', v') :: assign k v rest

-- ---------------------------------------------------------------------------
-- Assignment
-- ---------------------------------------------------------------------------

theorem lookup_eq_none {k : κ} {items : List (κ × υ)} :
    lookup k items = none ↔ k ∉ items.map Prod.fst := by
  induction items with
  | nil => exact ⟨fun _ => List.not_mem_nil, fun _ => rfl⟩
  | cons x rest ih =>
    obtain ⟨k', v⟩ := x
    rw [lookup, List.map_cons, List.mem_cons]
    split
    · next h => simp [h]
    · next h =>
      rw [ih]
      have : k ≠ k' := fun e => h e.symm
      tauto

theorem lookup_append (k : κ) (l r : List (κ × υ)) :
    lookup k (l ++ r) = (lookup k l).or (lookup k r) := by
  induction l with
  | nil => rfl
  | cons x l ih =>
    obtain ⟨k', v⟩ := x
    rw [List.cons_append, lookup, lookup, ih]
    split <;> rfl

/-- What an assignment does to the items: it replaces one in place, or adds one
at the end. -/
theorem assign_cases (k : κ) (v : υ) (items : List (κ × υ)) :
    (lookup k items = none ∧ assign k v items = items ++ [(k, v)]) ∨
    ∃ l old r, lookup k items = some old ∧ items = l ++ (k, old) :: r ∧
      assign k v items = l ++ (k, v) :: r ∧ k ∉ l.map Prod.fst := by
  induction items with
  | nil => exact .inl ⟨rfl, rfl⟩
  | cons x rest ih =>
    obtain ⟨k', v'⟩ := x
    simp only [lookup, assign]
    split
    · next h =>
      subst h
      exact .inr ⟨[], v', rest, rfl, rfl, rfl, List.not_mem_nil⟩
    · next h =>
      rcases ih with ⟨hnone, hassign⟩ | ⟨l, old, r, hsome, hitems, hassign, hl⟩
      · exact .inl ⟨hnone, by rw [hassign]; rfl⟩
      · refine .inr ⟨(k', v') :: l, old, r, hsome, by rw [hitems]; rfl, by rw [hassign]; rfl, ?_⟩
        rw [List.map_cons, List.mem_cons]
        rintro (e | e)
        · exact h e.symm
        · exact hl e

theorem nodup_assign (k : κ) (v : υ) {items : List (κ × υ)} (h : (items.map Prod.fst).Nodup) :
    ((assign k v items).map Prod.fst).Nodup := by
  rcases assign_cases k v items with ⟨hnone, hassign⟩ | ⟨l, old, r, _, hitems, hassign, _⟩
  · rw [hassign, List.map_append]
    rw [lookup_eq_none] at hnone
    exact List.nodup_append.mpr ⟨h, List.nodup_singleton _, fun a ha b hb e =>
      hnone (by rw [List.map_singleton, List.mem_singleton] at hb; rwa [e, hb] at ha)⟩
  · rw [hitems, List.map_append, List.map_cons] at h
    rw [hassign, List.map_append, List.map_cons]
    exact h

/-- `d[k] = v` -/
def set (d : Dict κ υ) (k : κ) (v : υ) : Dict κ υ := ⟨assign k v d.items, nodup_assign k v d.nodup⟩

theorem items_set (d : Dict κ υ) (k : κ) (v : υ) :
    (d.get? k = none ∧ (d.set k v).items = d.items ++ [(k, v)]) ∨
    ∃ l old r, d.get? k = some old ∧ d.items = l ++ (k, old) :: r ∧
      (d.set k v).items = l ++ (k, v) :: r ∧ k ∉ l.map Prod.fst :=
  assign_cases k v d.items

theorem get?_set (d : Dict κ υ) (k : κ) (v : υ) (k' : κ) :
    (d.set k v).get? k' = if k = k' then some v else d.get? k' := by
  show lookup k' (d.set k v).items = if k = k' then some v else lookup k' d.items
  rcases items_set d k v with ⟨hnone, hset⟩ | ⟨l, old, r, _, hitems, hset, hl⟩
  · rw [hset, lookup_append]
    simp only [lookup]
    split
    · next h =>
      subst h
      have : lookup k d.items = none := hnone
      rw [this]
      rfl
    · exact Option.or_none
  · rw [hset, hitems, lookup_append, lookup_append]
    simp only [lookup]
    split
    · next h =>
      subst h
      rw [lookup_eq_none.mpr hl]
      rfl
    · rfl

/-- `del d[k]`, also what `d.pop(k)` leaves. -/
def erase (d : Dict κ υ) (k : κ) : Dict κ υ where
  items := d.items.filter fun x => x.1 ≠ k
  nodup := (List.filter_sublist.map Prod.fst).nodup d.nodup

theorem get?_erase (d : Dict κ υ) (k k' : κ) :
    (d.erase k).get? k' = if k = k' then none else d.get? k' := by
  show lookup k' (d.items.filter fun x => x.1 ≠ k) = if k = k' then none else lookup k' d.items
  induction d.items with
  | nil => simp [lookup]
  | cons x rest ih =>
    obtain ⟨k₀, v⟩ := x
    by_cases hkept : k₀ = k
    · subst hkept
      rw [List.filter_cons_of_neg (by simp), ih, lookup]
      split <;> rfl
    · rw [List.filter_cons_of_pos (by simpa using hkept), lookup, lookup, ih]
      by_cases hthis : k₀ = k'
      · subst hthis
        rw [if_pos rfl, if_neg (Ne.symm hkept), if_pos rfl]
      · rw [if_neg hthis, if_neg hthis]

theorem get?_eq_some_iff (d : Dict κ υ) (k : κ) (v : υ) :
    d.get? k = some v ↔ (k, v) ∈ d.items := by
  obtain ⟨items, hnodup⟩ := d
  show lookup k items = some v ↔ (k, v) ∈ items
  induction items with
  | nil => exact ⟨nofun, fun h => (List.not_mem_nil h).elim⟩
  | cons x rest ih =>
    obtain ⟨k', v'⟩ := x
    rw [List.map_cons, List.nodup_cons] at hnodup
    rw [lookup, List.mem_cons, Prod.mk.injEq]
    split
    · next h =>
      subst h
      have hrest : (k', v) ∉ rest := fun hmem => hnodup.1 (List.mem_map.mpr ⟨_, hmem, rfl⟩)
      rw [Option.some.injEq]
      exact ⟨fun e => .inl ⟨rfl, e.symm⟩, fun e => e.elim (fun e => e.2.symm) fun e => (hrest e).elim⟩
    · next h =>
      rw [ih hnodup.2]
      exact ⟨.inr, fun e => e.resolve_left fun e => h e.1.symm⟩

/-- `{k: v for k, v in pairs}` -/
def ofList (pairs : List (κ × υ)) : Dict κ υ := pairs.foldl (fun d x => d.set x.1 x.2) empty

theorem ofList_concat (pairs : List (κ × υ)) (x : κ × υ) :
    ofList (pairs ++ [x]) = (ofList pairs).set x.1 x.2 := by
  rw [ofList, List.foldl_append]
  rfl

theorem mem_ofList {pairs : List (κ × υ)} {x : κ × υ} (h : x ∈ (ofList pairs).items) :
    x ∈ pairs := by
  induction pairs using List.reverseRecOn with
  | nil => exact h
  | append_singleton pairs y ih =>
    rw [ofList_concat] at h
    rw [List.mem_append, List.mem_singleton]
    rcases items_set (ofList pairs) y.1 y.2 with ⟨_, hset⟩ | ⟨l, old, r, _, hitems, hset, _⟩
    · rw [hset, List.mem_append, List.mem_singleton] at h
      exact h.imp ih id
    · rw [hset, List.mem_append, List.mem_cons] at h
      rw [hitems] at ih
      rcases h with h | h | h
      · exact .inl (ih (List.mem_append_left _ h))
      · exact .inr h
      · exact .inl (ih (List.mem_append_right _ (List.mem_cons_of_mem _ h)))

theorem get?_ofList_eq_none {pairs : List (κ × υ)} {k : κ} :
    (ofList pairs).get? k = none ↔ ∀ x ∈ pairs, x.1 ≠ k := by
  induction pairs using List.reverseRecOn with
  | nil => exact ⟨fun _ => nofun, fun _ => rfl⟩
  | append_singleton pairs y ih =>
    rw [ofList_concat, get?_set, List.forall_mem_append, List.forall_mem_singleton, ← ih]
    split
    · next h => exact ⟨nofun, fun e => (e.2 h).elim⟩
    · next h => exact ⟨fun e => ⟨e, h⟩, fun e => e.1⟩

/-- Keys that come but once keep their order. -/
theorem ofList_of_nodup {pairs : List (κ × υ)} (h : (pairs.map Prod.fst).Nodup) :
    ofList pairs = ⟨pairs, h⟩ := by
  induction pairs using List.reverseRecOn with
  | nil => rfl
  | append_singleton pairs y ih =>
    have hnodup := h
    rw [List.map_append, List.map_singleton] at hnodup
    obtain ⟨hpairs, _, hapart⟩ := List.nodup_append.mp hnodup
    ext1
    rw [ofList_concat]
    rcases items_set (ofList pairs) y.1 y.2 with ⟨_, hset⟩ | ⟨_, _, _, hsome, _⟩
    · rw [hset, ih hpairs]
    · have hnone : (ofList pairs).get? y.1 = none := by
        rw [get?_ofList_eq_none]
        intro x hx
        exact hapart x.1 (List.mem_map_of_mem hx) y.1 (List.mem_singleton_self _)
      rw [hnone] at hsome
      cases hsome

theorem ofList_items (d : Dict κ υ) : ofList d.items = d := ofList_of_nodup d.nodup

def keys (d : Dict κ υ) : List κ := d.items.map Prod.fst

theorem mem_keys {d : Dict κ υ} {k : κ} : k ∈ d.keys ↔ d.get? k ≠ none :=
  (not_iff_comm.mp lookup_eq_none.symm).symm

/-- `not d` -/
theorem items_eq_nil_iff {d : Dict κ υ} : d.items = [] ↔ ∀ k, d.get? k = none := by
  refine ⟨fun h k => by rw [get?, h]; rfl, ?_⟩
  intro h
  refine List.eq_nil_iff_forall_not_mem.mpr ?_
  rintro ⟨k, v⟩ hmem
  have := h k
  rw [(get?_eq_some_iff d k v).mpr hmem] at this
  cases this

/-- `{k: f(k) for k in ks}` -/
def fromKeys (ks : List κ) (f : κ → υ) : Dict κ υ := ofList (ks.map fun k => (k, f k))

theorem get?_fromKeys (ks : List κ) (f : κ → υ) (k : κ) :
    (fromKeys ks f).get? k = if k ∈ ks then some (f k) else none := by
  rw [fromKeys]
  induction ks using List.reverseRecOn with
  | nil => rfl
  | append_singleton ks x ih =>
    rw [List.map_append, List.map_singleton, ofList_concat, get?_set, ih]
    by_cases hx : x = k
    · simp [hx]
    · simp [hx, Ne.symm hx]

-- ---------------------------------------------------------------------------
-- Dictionaries of lists
-- ---------------------------------------------------------------------------

variable {α : Type}

/-- `d[key]` of a `defaultdict(list)` -/
def group (d : Dict κ (List α)) (k : κ) : List α := (d.get? k).getD []

/-- `d[key].extend(xs)` of a `defaultdict(list)` -/
def extend (d : Dict κ (List α)) (k : κ) (xs : List α) : Dict κ (List α) :=
  d.set k (d.group k ++ xs)

theorem group_extend (d : Dict κ (List α)) (k : κ) (xs : List α) (k' : κ) :
    (d.extend k xs).group k' = d.group k' ++ if k = k' then xs else [] := by
  rw [extend, group, get?_set]
  split
  · next h =>
    subst h
    rfl
  · exact (List.append_nil _).symm

/-- A list that is replaced later on was empty. -/
def Kept (pairs : List (κ × List α)) : Prop :=
  pairs.Pairwise fun x y => x.1 = y.1 → x.2 = []

/-- Everything in the lists, counted. -/
def size (pairs : List (κ × List α)) : Nat := (pairs.flatMap Prod.snd).length

def filled (pairs : List (κ × List α)) : List (κ × List α) := pairs.filter fun x => !x.2.isEmpty

omit [DecidableEq κ] in
theorem kept_concat {pairs : List (κ × List α)} {x : κ × List α} :
    Kept (pairs ++ [x]) ↔ Kept pairs ∧ ∀ y ∈ pairs, y.1 = x.1 → y.2 = [] := by
  simp [Kept, List.pairwise_append]

/-- Where only empty lists are replaced, the dictionary has all that is in the
others. -/
theorem filter_ofList_perm {pairs : List (κ × List α)} (h : Kept pairs) :
    (filled (ofList pairs).items).Perm (filled pairs) := by
  induction pairs using List.reverseRecOn with
  | nil => exact .nil
  | append_singleton pairs x ih =>
    rw [kept_concat] at h
    have hkept := ih h.1
    rw [ofList_concat]
    show (filled ((ofList pairs).set x.1 x.2).items).Perm (List.filter _ (pairs ++ [x]))
    rw [List.filter_append]
    rcases items_set (ofList pairs) x.1 x.2 with ⟨_, hset⟩ | ⟨l, old, r, _, hitems, hset, _⟩
    · rw [hset]
      show (List.filter _ (_ ++ [x])).Perm _
      rw [List.filter_append]
      exact hkept.append_right _
    · have hold : old = [] := by
        have hmem : (x.1, old) ∈ (ofList pairs).items := by
          rw [hitems]
          exact List.mem_append_right _ List.mem_cons_self
        exact h.2 _ (mem_ofList hmem) rfl
      have hdrop : filled (l ++ (x.1, old) :: r) = filled (l ++ r) := by
        simp [filled, hold]
      rw [hset]
      rw [hitems, hdrop] at hkept
      have hmid : (filled (l ++ x :: r)).Perm (filled (l ++ r) ++ filled [x]) := by
        have hmiddle : (l ++ x :: r).Perm (x :: (l ++ r)) := List.perm_middle
        have hmoved := (hmiddle.trans (List.perm_append_singleton x (l ++ r)).symm).filter
          fun x => !x.2.isEmpty
        rwa [List.filter_append (l ++ r)] at hmoved
      exact hmid.trans (hkept.append_right _)

omit [DecidableEq κ] in
theorem flatMap_filled {β : Type} {f : κ × List α → List β} (hf : ∀ k, f (k, []) = [])
    (pairs : List (κ × List α)) : (filled pairs).flatMap f = pairs.flatMap f := by
  induction pairs with
  | nil => rfl
  | cons x rest ih =>
    obtain ⟨k, v⟩ := x
    cases v with
    | nil =>
      rw [List.flatMap_cons, hf, List.nil_append, ← ih]
      rfl
    | cons a v =>
      rw [List.flatMap_cons, ← ih]
      rfl

/-- Going over the dictionary is going over the pairs, in another order. -/
theorem flatMap_ofList_perm {β : Type} {f : κ × List α → List β} (hf : ∀ k, f (k, []) = [])
    {pairs : List (κ × List α)} (h : Kept pairs) :
    ((ofList pairs).items.flatMap f).Perm (pairs.flatMap f) := by
  rw [← flatMap_filled hf, ← flatMap_filled hf pairs]
  exact (filter_ofList_perm h).flatMap_right f

omit [DecidableEq κ] in
theorem size_append (l r : List (κ × List α)) : size (l ++ r) = size l + size r := by
  rw [size, List.flatMap_append, List.length_append]
  rfl

omit [DecidableEq κ] in
theorem size_cons (x : κ × List α) (r : List (κ × List α)) :
    size (x :: r) = x.2.length + size r := by
  rw [size, List.flatMap_cons, List.length_append]
  rfl

/-- The dictionary never has more than was put in, and it has as much only if
nothing was lost on the way. -/
theorem size_ofList (pairs : List (κ × List α)) :
    size (ofList pairs).items ≤ size pairs ∧
      (size (ofList pairs).items = size pairs → Kept pairs) := by
  induction pairs using List.reverseRecOn with
  | nil => exact ⟨Nat.le_refl _, fun _ => List.Pairwise.nil⟩
  | append_singleton pairs x ih =>
    obtain ⟨hle, hkept⟩ := ih
    have hone : size (pairs ++ [x]) = size pairs + x.2.length := by
      rw [size_append, size_cons]
      rfl
    rw [ofList_concat, hone, kept_concat]
    rcases items_set (ofList pairs) x.1 x.2 with ⟨hnone, hset⟩ | ⟨l, old, r, hsome, hitems, hset, _⟩
    · have hsize : size ((ofList pairs).set x.1 x.2).items =
          size (ofList pairs).items + x.2.length := by
        rw [hset, size_append, size_cons]
        rfl
      refine ⟨by omega, ?_⟩
      intro heq
      refine ⟨hkept (by omega), ?_⟩
      intro y hy hxy
      exact absurd hxy (get?_ofList_eq_none.mp hnone y hy)
    · have hsize : size ((ofList pairs).set x.1 x.2).items + old.length =
          size (ofList pairs).items + x.2.length := by
        rw [hset, hitems, size_append, size_append, size_cons, size_cons]
        dsimp only
        omega
      refine ⟨by omega, ?_⟩
      intro heq
      have hold : old = [] := List.length_eq_zero_iff.mp (by omega)
      have hpairs : Kept pairs := hkept (by omega)
      refine ⟨hpairs, ?_⟩
      intro y hy hxy
      by_contra hne
      -- a list that was not empty is still there, and it is the one replaced now
      have hmem : y ∈ filled (ofList pairs).items := by
        rw [(filter_ofList_perm hpairs).mem_iff]
        exact List.mem_filter.mpr ⟨hy, by simpa using hne⟩
      have hget : (ofList pairs).get? x.1 = some y.2 := by
        rw [get?_eq_some_iff, ← hxy]
        exact (List.mem_filter.mp hmem).1
      rw [hsome, Option.some.injEq] at hget
      exact hne (hget ▸ hold)

-- ---------------------------------------------------------------------------
-- Counting
-- ---------------------------------------------------------------------------

/-- `collections.Counter(keys)` -/
def counter (keys : List κ) : Dict κ Nat :=
  keys.foldl (fun d k => d.set k ((d.get? k).getD 0 + 1)) empty

theorem get?_counter (keys : List κ) (k : κ) :
    (counter keys).get? k = if k ∈ keys then some (keys.count k) else none := by
  induction keys using List.reverseRecOn with
  | nil => rfl
  | append_singleton keys x ih =>
    have hstep : counter (keys ++ [x]) =
        (counter keys).set x (((counter keys).get? x).getD 0 + 1) := by
      rw [counter, List.foldl_append]
      rfl
    rw [hstep, get?_set]
    by_cases hx : x = k
    · subst hx
      rw [if_pos rfl, ih, if_pos (List.mem_append_right _ List.mem_cons_self), List.count_append,
        List.count_singleton_self]
      by_cases hmem : x ∈ keys
      · rw [if_pos hmem]
        rfl
      · rw [if_neg hmem, List.count_eq_zero_of_not_mem hmem]
        rfl
    · rw [if_neg hx, ih, List.count_append, List.count_singleton]
      have hne : ¬ k = x := fun e => hx e.symm
      simp [hx, hne]

end Dict
