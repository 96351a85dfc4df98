import Mathlib.Data.BitVec
import NeonTests.Diamond.Selectors
import NeonTests.Lib.Grouping
import NeonTests.Lib.MemoryArray

/-!
# The diamond — the loupe

`contracts/EIPs/EIP2535/facets/DiamondLoupeFacet.sol`: the views of the selector table. Each
goes through the selectors once, and fills arrays that are as long as that of the selectors
and are cut to length in the end.

* `facets_eq` — the facets in the order of their first selectors, each with its selectors;
* `facetAddresses_eq`, `facetFunctionSelectors_eq` — the other two;
* `loupe_agrees` — so the views agree, for every table and after any cuts.
-/

namespace NeonTests.Diamond

open Batch Fallible Grouping Solidity

variable {Address : Type} [Zero Address] [DecidableEq Address]

-- ---------------------------------------------------------------------------
-- facets
-- ---------------------------------------------------------------------------

structure Facet (Address : Type) where
  facetAddress : Address
  functionSelectors : List Selector
  deriving DecidableEq, Repr

/-- An element of `new Facet[](n)`. -/
def Facet.zero : Facet Address := ⟨0, []⟩

/-- The variables of `facets`. -/
structure Collected (Address : Type) where
  facets : List (Facet Address)
  numFacetSelectors : List Uint16
  numFacets : Nat

/-- `facets_[facetIndex].functionSelectors[numFacetSelectors[facetIndex]] = selector`, and the
number is counted up. -/
def addSelector (selector : Selector) (facetIndex : Nat) (c : Collected Address) :
    Except Revert (Collected Address) := do
  let facet ← element c.facets facetIndex
  let place ← element c.numFacetSelectors facetIndex
  let selectors ← setElement facet.functionSelectors place.toNat selector
  let facets ← setElement c.facets facetIndex { facet with functionSelectors := selectors }
  let count ← checkedAdd place 1
  let numFacetSelectors ← setElement c.numFacetSelectors facetIndex count
  return { c with facets := facets, numFacetSelectors := numFacetSelectors }

/-- A facet that was not there. -/
def addFacet (selectorCount : Nat) (facet : Address) (selector : Selector)
    (c : Collected Address) : Except Revert (Collected Address) := do
  let selectors ← setElement (List.replicate selectorCount 0) 0 selector
  let facets ← setElement c.facets c.numFacets ⟨facet, selectors⟩
  let numFacetSelectors ← setElement c.numFacetSelectors c.numFacets 1
  return ⟨facets, numFacetSelectors, c.numFacets + 1⟩

/-- A round of the loop over the selectors. -/
def collectSelector (ds : DiamondStorage Address) (selector : Selector) (c : Collected Address) :
    Except Revert (Collected Address) := do
  let found ← search (fun facet => facet.facetAddress = facetAddress ds selector) c.facets
    c.numFacets 0
  match found with
  | some facetIndex => addSelector selector facetIndex c
  | none => addFacet ds.selectors.length (facetAddress ds selector) selector c

/-- The second loop, over the facets: their numbers of selectors are set. -/
def setNumSelectors (numFacetSelectors : List Uint16) :
    Nat → Nat → List (Facet Address) → Except Revert (List (Facet Address))
  | 0, _, facets => .ok facets
  | n + 1, facetIndex, facets => do
    let numSelectors ← element numFacetSelectors facetIndex
    let facet ← element facets facetIndex
    let facets ← setElement facets facetIndex { facet with
      functionSelectors := setLength facet.functionSelectors numSelectors.toNat }
    setNumSelectors numFacetSelectors n (facetIndex + 1) facets

def facets (ds : DiamondStorage Address) : Except Revert (List (Facet Address)) := do
  let c ← fold (collectSelector ds) ds.selectors
    ⟨List.replicate ds.selectors.length Facet.zero, List.replicate ds.selectors.length 0, 0⟩
  let facets ← setNumSelectors c.numFacetSelectors c.numFacets 0 c.facets
  return setLength facets c.numFacets

-- ---------------------------------------------------------------------------
-- facetFunctionSelectors and facetAddresses
-- ---------------------------------------------------------------------------

/-- A round of its loop, with `numSelectors`. -/
def collectIfFacet (ds : DiamondStorage Address) (facet : Address) (selector : Selector)
    (c : List Selector × Nat) : Except Revert (List Selector × Nat) :=
  if facet = facetAddress ds selector then do
    let selectors ← setElement c.1 c.2 selector
    return (selectors, c.2 + 1)
  else .ok c

def facetFunctionSelectors (ds : DiamondStorage Address) (facet : Address) :
    Except Revert (List Selector) := do
  let c ← fold (collectIfFacet ds facet) ds.selectors (List.replicate ds.selectors.length 0, 0)
  return setLength c.1 c.2

/-- A round of its loop, with `numFacets`. -/
def collectAddress (ds : DiamondStorage Address) (selector : Selector)
    (c : List Address × Nat) : Except Revert (List Address × Nat) := do
  let found ← search (fun facet => facetAddress ds selector = facet) c.1 c.2 0
  match found with
  | some _ => .ok c
  | none => do
    let addresses ← setElement c.1 c.2 (facetAddress ds selector)
    return (addresses, c.2 + 1)

def facetAddresses (ds : DiamondStorage Address) : Except Revert (List Address) := do
  let c ← fold (collectAddress ds) ds.selectors (List.replicate ds.selectors.length 0, 0)
  return setLength c.1 c.2

-- ---------------------------------------------------------------------------
-- What is collected
-- ---------------------------------------------------------------------------

variable {ds : DiamondStorage Address} {past rest : List Selector} {selector : Selector}
  {facet : Address}

/-- The facet's own selectors, in an array as long as that of all selectors. -/
def entry (ds : DiamondStorage Address) (past : List Selector) (facet : Address) :
    Facet Address :=
  ⟨facet, padded ds.selectors.length 0 (itemsOf (facetAddress ds) past facet)⟩

def numSelectors (ds : DiamondStorage Address) (past : List Selector) (facet : Address) :
    Uint16 :=
  BitVec.ofNat 16 (itemsOf (facetAddress ds) past facet).length

/-- The variables of `facets` after the selectors `past`. -/
def collected (ds : DiamondStorage Address) (past : List Selector) : Collected Address where
  facets := padded ds.selectors.length Facet.zero
    ((keysOf (facetAddress ds) past).map (entry ds past))
  numFacetSelectors := padded ds.selectors.length 0
    ((keysOf (facetAddress ds) past).map (numSelectors ds past))
  numFacets := (keysOf (facetAddress ds) past).length

omit [Zero Address] in
theorem toNat_numSelectors (h : past.length ≤ 65535) :
    (numSelectors ds past facet).toNat = (itemsOf (facetAddress ds) past facet).length := by
  have hle := length_itemsOf_le (facetAddress ds) past facet
  rw [numSelectors, BitVec.toNat_ofNat, Nat.mod_eq_of_lt (by omega)]

omit [Zero Address] in
theorem entry_of_ne (h : facetAddress ds selector ≠ facet) :
    entry ds (past ++ [selector]) facet = entry ds past facet := by
  rw [entry, itemsOf_concat_of_ne h, entry]

omit [Zero Address] in
theorem numSelectors_of_ne (h : facetAddress ds selector ≠ facet) :
    numSelectors ds (past ++ [selector]) facet = numSelectors ds past facet := by
  rw [numSelectors, itemsOf_concat_of_ne h, numSelectors]

section Keys

variable {α : Type} {n i : Nat} {keys : List Address} {key : Address} {f g : Address → α}

omit [Zero Address] [DecidableEq Address] in
/-- The array has one element for each key, and that of a key there already is set. -/
theorem setElement_key (zero : α) (hkeys : keys.Nodup) (hi : i < keys.length)
    (hsame : ∀ k ∈ keys, keys[i] ≠ k → g k = f k) :
    setElement (padded n zero (keys.map f)) i (g keys[i]) = .ok (padded n zero (keys.map g)) := by
  rw [setElement_padded (by rwa [List.length_map]), set_map hkeys hi]
  exact fun k hk hne => hsame k hk hne.symm

omit [Zero Address] [DecidableEq Address] in
/-- That of a new key. -/
theorem setElement_newKey (zero : α) (hroom : keys.length < n)
    (hsame : ∀ k ∈ keys, g k = f k) :
    setElement (padded n zero (keys.map f)) keys.length (g key) =
      .ok (padded n zero ((keys ++ [key]).map g)) := by
  have hend : setElement (padded n zero (keys.map f)) (keys.map f).length (g key) =
      .ok (padded n zero (keys.map f ++ [g key])) := setElement_end (by rwa [List.length_map])
  rw [List.length_map] at hend
  rw [hend, List.map_append, List.map_singleton, List.map_congr_left hsame]

end Keys

/-- A selector of a facet that was found. -/
theorem addSelector_collected {i : Nat} (hi : i < (keysOf (facetAddress ds) past).length)
    (hkey : (keysOf (facetAddress ds) past)[i] = facetAddress ds selector)
    (hroom : past.length < ds.selectors.length) (hbounded : ds.selectors.length ≤ 65535) :
    addSelector selector i (collected ds past) = .ok (collected ds (past ++ [selector])) := by
  have hkeys : keysOf (facetAddress ds) (past ++ [selector]) = keysOf (facetAddress ds) past :=
    keysOf_concat_of_mem (hkey ▸ List.getElem_mem hi)
  have hnodup := nodup_keysOf (facetAddress ds) past
  have hitems := length_itemsOf_le (facetAddress ds) past (facetAddress ds selector)
  have hplace : (numSelectors ds past (facetAddress ds selector)).toNat =
      (itemsOf (facetAddress ds) past (facetAddress ds selector)).length :=
    toNat_numSelectors (by omega)
  have hfacet : element (collected ds past).facets i =
      .ok (entry ds past (facetAddress ds selector)) := by
    rw [collected, element_padded (by rwa [List.length_map]), List.getElem_map, hkey]
  have hnum : element (collected ds past).numFacetSelectors i =
      .ok (numSelectors ds past (facetAddress ds selector)) := by
    rw [collected, element_padded (by rwa [List.length_map]), List.getElem_map, hkey]
  have hselectors : setElement (entry ds past (facetAddress ds selector)).functionSelectors
      (numSelectors ds past (facetAddress ds selector)).toNat selector =
      .ok (entry ds (past ++ [selector]) (facetAddress ds selector)).functionSelectors := by
    rw [hplace, entry, entry, itemsOf_concat_self]
    exact setElement_end (by omega)
  have hfacets : setElement (collected ds past).facets i
      (entry ds (past ++ [selector]) (facetAddress ds selector)) =
      .ok (collected ds (past ++ [selector])).facets := by
    rw [collected, collected, hkeys, ← hkey]
    exact setElement_key _ hnodup hi fun k _ hne => entry_of_ne (hkey ▸ hne)
  have hcount : checkedAdd (numSelectors ds past (facetAddress ds selector)) 1 =
      .ok (numSelectors ds (past ++ [selector]) (facetAddress ds selector)) := by
    have hone : (1 : Uint16).toNat = 1 := rfl
    rw [checkedAdd_eq_ok, hplace, hone, toNat_numSelectors (by simp; omega), itemsOf_concat_self,
      List.length_append, List.length_singleton]
  have hcounts : setElement (collected ds past).numFacetSelectors i
      (numSelectors ds (past ++ [selector]) (facetAddress ds selector)) =
      .ok (collected ds (past ++ [selector])).numFacetSelectors := by
    rw [collected, collected, hkeys, ← hkey]
    exact setElement_key _ hnodup hi fun k _ hne => numSelectors_of_ne (hkey ▸ hne)
  have hsame : { entry ds past (facetAddress ds selector) with
      functionSelectors :=
        (entry ds (past ++ [selector]) (facetAddress ds selector)).functionSelectors } =
      entry ds (past ++ [selector]) (facetAddress ds selector) := rfl
  rw [addSelector, hfacet, ok_bind, hnum, ok_bind, hselectors, ok_bind, hsame, hfacets, ok_bind,
    hcount, ok_bind, hcounts, ok_bind]
  simp only [collected, hkeys]
  rfl

/-- The first selector of a facet. -/
theorem addFacet_collected (hnew : facetAddress ds selector ∉ keysOf (facetAddress ds) past)
    (hroom : past.length < ds.selectors.length) :
    addFacet ds.selectors.length (facetAddress ds selector) selector (collected ds past) =
      .ok (collected ds (past ++ [selector])) := by
  have hkeys := keysOf_concat_of_notMem hnew
  have hlength := length_keysOf_le (facetAddress ds) past
  have hother : ∀ k ∈ keysOf (facetAddress ds) past, facetAddress ds selector ≠ k :=
    fun k hk heq => hnew (heq ▸ hk)
  have hown : itemsOf (facetAddress ds) (past ++ [selector]) (facetAddress ds selector) =
      [selector] := by
    rw [itemsOf_concat_self, itemsOf_eq_nil hnew, List.nil_append]
  have hselectors : setElement (padded ds.selectors.length 0 []) 0 selector =
      .ok (entry ds (past ++ [selector]) (facetAddress ds selector)).functionSelectors := by
    rw [entry, hown]
    exact setElement_end (Nat.zero_lt_of_lt hroom)
  have hfacets : setElement (collected ds past).facets (collected ds past).numFacets
      (entry ds (past ++ [selector]) (facetAddress ds selector)) =
      .ok (collected ds (past ++ [selector])).facets := by
    rw [collected, collected, hkeys]
    exact setElement_newKey _ (by omega) fun k hk => entry_of_ne (hother k hk)
  have hone : (1 : Uint16) = numSelectors ds (past ++ [selector]) (facetAddress ds selector) := by
    rw [numSelectors, hown]
    rfl
  have hcounts : setElement (collected ds past).numFacetSelectors (collected ds past).numFacets 1 =
      .ok (collected ds (past ++ [selector])).numFacetSelectors := by
    rw [hone, collected, collected, hkeys]
    exact setElement_newKey _ (by omega) fun k hk => numSelectors_of_ne (hother k hk)
  have hnumFacets : (collected ds past).numFacets + 1 =
      (collected ds (past ++ [selector])).numFacets := by
    rw [collected, collected, hkeys, List.length_append, List.length_singleton]
  rw [addFacet, ← padded_nil, hselectors, ok_bind]
  show (setElement _ _ (entry ds (past ++ [selector]) (facetAddress ds selector)) >>= _) = _
  rw [hfacets, ok_bind, hcounts, ok_bind, hnumFacets]
  rfl

/-- One selector more. -/
theorem collectSelector_collected (hroom : past.length < ds.selectors.length)
    (hbounded : ds.selectors.length ≤ 65535) :
    collectSelector ds selector (collected ds past) =
      .ok (collected ds (past ++ [selector])) := by
  have hsearch := search_padded ds.selectors.length Facet.zero
    ((keysOf (facetAddress ds) past).map (entry ds past))
    (fun facet => decide (facet.facetAddress = facetAddress ds selector))
  rw [List.length_map, List.findIdx?_map] at hsearch
  unfold collectSelector
  rw [show search _ (collected ds past).facets (collected ds past).numFacets 0 = _ from hsearch,
    ok_bind]
  split
  · next i hfind =>
    obtain ⟨hi, hp, -⟩ := List.findIdx?_eq_some_iff_getElem.mp hfind
    exact addSelector_collected hi (of_decide_eq_true hp) hroom hbounded
  · next hfind =>
    have hall := List.findIdx?_eq_none_iff.mp hfind
    refine addFacet_collected (fun hmem => ?_) hroom
    have hnot := hall _ hmem
    simp [entry] at hnot

/-- All selectors. -/
theorem fold_collectSelector (hbounded : ds.selectors.length ≤ 65535) :
    fold (collectSelector ds) ds.selectors
        ⟨List.replicate ds.selectors.length Facet.zero, List.replicate ds.selectors.length 0, 0⟩ =
      .ok (collected ds ds.selectors) := by
  refine fold_eq_of_step (collected ds) fun past selector rest hsplit => ?_
  exact collectSelector_collected (length_past_lt hsplit) hbounded

-- ---------------------------------------------------------------------------
-- Lengths
-- ---------------------------------------------------------------------------

omit [DecidableEq Address] in
/-- The second loop, with `done` behind it. -/
theorem setNumSelectors_padded {n : Nat} {full cut : Address → Facet Address}
    {num : Address → Uint16}
    (hcut : ∀ k, { full k with
      functionSelectors := setLength (full k).functionSelectors (num k).toNat } = cut k)
    (done todo : List Address) :
    setNumSelectors (padded n 0 ((done ++ todo).map num)) todo.length done.length
        (padded n Facet.zero (done.map cut ++ todo.map full)) =
      .ok (padded n Facet.zero ((done ++ todo).map cut)) := by
  induction todo generalizing done with
  | nil =>
    rw [List.map_nil, List.append_nil, List.append_nil]
    rfl
  | cons k todo ih =>
    have hlt : done.length < (done ++ k :: todo).length := by
      rw [List.length_append, List.length_cons]
      omega
    have hnum : element (padded n 0 ((done ++ k :: todo).map num)) done.length =
        .ok (num k) := by
      rw [element_padded (by rwa [List.length_map])]
      simp
    have hlt' : done.length < (done.map cut ++ (k :: todo).map full).length := by
      simp
    have hfacet : element (padded n Facet.zero (done.map cut ++ (k :: todo).map full))
        done.length = .ok (full k) := by
      rw [element_padded hlt']
      simp
    have hset : setElement (padded n Facet.zero (done.map cut ++ (k :: todo).map full))
        done.length (cut k) =
        .ok (padded n Facet.zero ((done ++ [k]).map cut ++ todo.map full)) := by
      rw [setElement_padded hlt']
      simp
    have hrest := ih (done ++ [k])
    rw [List.length_append, List.length_singleton, List.append_assoc, List.singleton_append]
      at hrest
    rw [List.length_cons, setNumSelectors, hnum, ok_bind, hfacet, ok_bind, hcut, hset, ok_bind]
    exact hrest

/-- The facets of the table: in the order in which they come up in the selectors, each with
its selectors in their order. -/
def facetsOf (ds : DiamondStorage Address) : List (Facet Address) :=
  (keysOf (facetAddress ds) ds.selectors).map fun facet =>
    ⟨facet, itemsOf (facetAddress ds) ds.selectors facet⟩

/-- **`facets`.** -/
theorem facets_eq (hbounded : ds.selectors.length ≤ 65535) :
    facets ds = .ok (facetsOf ds) := by
  have hloop : setNumSelectors (collected ds ds.selectors).numFacetSelectors
      (collected ds ds.selectors).numFacets 0 (collected ds ds.selectors).facets =
      .ok (padded ds.selectors.length Facet.zero (facetsOf ds)) := by
    refine setNumSelectors_padded (fun k => ?_) [] (keysOf (facetAddress ds) ds.selectors)
    rw [toNat_numSelectors hbounded, entry, take_padded]
  have hlength : (facetsOf ds).length = (collected ds ds.selectors).numFacets :=
    List.length_map ..
  rw [facets, fold_collectSelector hbounded, ok_bind, hloop, ok_bind, ← hlength, take_padded]
  rfl

-- ---------------------------------------------------------------------------
-- The other two
-- ---------------------------------------------------------------------------

omit [Zero Address] in
/-- **`facetFunctionSelectors`.** -/
theorem facetFunctionSelectors_eq (ds : DiamondStorage Address) (facet : Address) :
    facetFunctionSelectors ds facet = .ok (itemsOf (facetAddress ds) ds.selectors facet) := by
  have hloop : fold (collectIfFacet ds facet) ds.selectors
      (List.replicate ds.selectors.length 0, 0) =
      .ok (padded ds.selectors.length 0 (itemsOf (facetAddress ds) ds.selectors facet),
        (itemsOf (facetAddress ds) ds.selectors facet).length) := by
    refine fold_eq_of_step (fun past => (padded ds.selectors.length 0
      (itemsOf (facetAddress ds) past facet), (itemsOf (facetAddress ds) past facet).length))
      fun past selector rest hsplit => ?_
    have hle := length_itemsOf_le (facetAddress ds) past facet
    have hroom : past.length < ds.selectors.length := length_past_lt hsplit
    unfold collectIfFacet
    by_cases h : facet = facetAddress ds selector
    · subst h
      rw [if_pos rfl, setElement_end (by omega), ok_bind, itemsOf_concat_self, List.length_append]
      rfl
    · rw [if_neg h, itemsOf_concat_of_ne (Ne.symm h)]
  rw [facetFunctionSelectors, hloop, ok_bind, take_padded]
  rfl

/-- **`facetAddresses`.** -/
theorem facetAddresses_eq (ds : DiamondStorage Address) :
    facetAddresses ds = .ok (keysOf (facetAddress ds) ds.selectors) := by
  have hloop : fold (collectAddress ds) ds.selectors (List.replicate ds.selectors.length 0, 0) =
      .ok (padded ds.selectors.length 0 (keysOf (facetAddress ds) ds.selectors),
        (keysOf (facetAddress ds) ds.selectors).length) := by
    refine fold_eq_of_step (fun past => (padded ds.selectors.length 0
      (keysOf (facetAddress ds) past), (keysOf (facetAddress ds) past).length))
      fun past selector rest hsplit => ?_
    have hle := length_keysOf_le (facetAddress ds) past
    have hroom : past.length < ds.selectors.length := length_past_lt hsplit
    unfold collectAddress
    rw [search_padded, ok_bind]
    split
    · next i hfind =>
      obtain ⟨hi, hp, -⟩ := List.findIdx?_eq_some_iff_getElem.mp hfind
      have hmem : facetAddress ds selector ∈ keysOf (facetAddress ds) past := by
        rw [of_decide_eq_true hp]
        exact List.getElem_mem hi
      rw [keysOf_concat_of_mem hmem]
    · next hfind =>
      have hall := List.findIdx?_eq_none_iff.mp hfind
      have hnew : facetAddress ds selector ∉ keysOf (facetAddress ds) past := by
        intro hmem
        simpa using hall _ hmem
      rw [setElement_end (by omega), ok_bind, keysOf_concat_of_notMem hnew, List.length_append]
      rfl
  rw [facetAddresses, hloop, ok_bind, take_padded]
  rfl

-- ---------------------------------------------------------------------------
-- Agreement
-- ---------------------------------------------------------------------------

/-- The views of a table agree on the facets `fs`. -/
structure Agree (ds : DiamondStorage Address) (fs : List (Facet Address)) : Prop where
  listed : facets ds = .ok fs
  once : (fs.map Facet.facetAddress).Nodup
  /-- by first appearance -/
  ordered : fs.map Facet.facetAddress = (ds.selectors.map (facetAddress ds)).eraseDups
  partition : (fs.flatMap Facet.functionSelectors).Perm ds.selectors
  own : ∀ f ∈ fs, f.functionSelectors =
    ds.selectors.filter fun selector => facetAddress ds selector = f.facetAddress
  addresses : facetAddresses ds = .ok (fs.map Facet.facetAddress)
  functionSelectors : ∀ facet, facetFunctionSelectors ds facet =
    .ok (((fs.find? fun f => f.facetAddress = facet).map Facet.functionSelectors).getD [])
  lookup : ∀ f ∈ fs, ∀ selector ∈ f.functionSelectors, facetAddress ds selector = f.facetAddress

omit [Zero Address] in
theorem map_facetsOf (ds : DiamondStorage Address) :
    (facetsOf ds).map Facet.facetAddress = keysOf (facetAddress ds) ds.selectors := by
  rw [facetsOf, List.map_map]
  exact List.map_id _

omit [Zero Address] in
theorem mem_facetsOf {f : Facet Address} (hf : f ∈ facetsOf ds) :
    f.functionSelectors = itemsOf (facetAddress ds) ds.selectors f.facetAddress := by
  obtain ⟨facet, -, rfl⟩ := List.mem_map.mp hf
  rfl

omit [Zero Address] in
/-- Looking a facet up in the list. -/
theorem find_facetsOf (ds : DiamondStorage Address) (facet : Address) :
    (((facetsOf ds).find? fun f => decide (f.facetAddress = facet)).map
        Facet.functionSelectors).getD [] =
      itemsOf (facetAddress ds) ds.selectors facet := by
  generalize hfind : (facetsOf ds).find? _ = found
  rcases found with _ | f
  · have hnone := List.find?_eq_none.mp hfind
    refine (itemsOf_eq_nil ?_).symm
    intro hmem
    exact hnone _ (List.mem_map_of_mem hmem) (decide_eq_true rfl)
  · have hfacet : f.facetAddress = facet := by simpa using List.find?_some hfind
    rw [← hfacet]
    exact mem_facetsOf (List.mem_of_find?_eq_some hfind)

theorem agree_facetsOf (hbounded : ds.selectors.length ≤ 65535) : Agree ds (facetsOf ds) where
  listed := facets_eq hbounded
  once := by
    rw [map_facetsOf]
    exact nodup_keysOf _ _
  ordered := map_facetsOf ds
  partition := by
    rw [facetsOf, List.flatMap_map]
    exact flatMap_itemsOf_perm _ _
  own := fun f hf => mem_facetsOf hf
  addresses := by
    rw [map_facetsOf]
    exact facetAddresses_eq ds
  functionSelectors := fun facet => by
    rw [find_facetsOf]
    exact facetFunctionSelectors_eq ds facet
  lookup := by
    intro f hf selector hselector
    rw [mem_facetsOf hf, itemsOf, List.mem_filter] at hselector
    exact of_decide_eq_true hselector.2

/-- What no facet of the list has is not in the table. -/
theorem Agree.notMem {fs : List (Facet Address)} (h : Agree ds fs)
    (hnone : ∀ f ∈ fs, selector ∉ f.functionSelectors) : selector ∉ ds.selectors := by
  intro hmem
  obtain ⟨f, hf, hselector⟩ := List.mem_flatMap.mp (h.partition.mem_iff.mpr hmem)
  exact hnone f hf hselector

/-- **The views agree** for every table of up to 65535 selectors, with the lookup of a selector
that is not listed where such selectors have no facet; so they have none after any cuts of an
empty diamond. -/
theorem loupe_agrees :
    (∀ ds : DiamondStorage Address, ds.selectors.length ≤ 65535 → ∃ fs, Agree ds fs ∧
      ((∀ selector, selector ∉ ds.selectors → facetAddress ds selector = 0) →
        ∀ selector, (∀ f ∈ fs, selector ∉ f.functionSelectors) →
          facetAddress ds selector = 0)) ∧
    ∀ (this : Address) (calls : List (Call Address)), ∃ fs, Agree (cutAll this calls empty) fs ∧
      ∀ selector, (∀ f ∈ fs, selector ∉ f.functionSelectors) →
        facetAddress (cutAll this calls empty) selector = 0 := by
  refine ⟨fun ds hbounded => ?_, fun this calls => ?_⟩
  · refine ⟨_, agree_facetsOf hbounded, fun hzero selector hnone => ?_⟩
    exact hzero selector ((agree_facetsOf hbounded).notMem hnone)
  · have hds := cutAll_records this calls
    refine ⟨_, agree_facetsOf hds.bounded, fun selector hnone => ?_⟩
    by_contra hfacet
    exact (agree_facetsOf hds.bounded).notMem hnone ((hds.facet_iff selector).mp hfacet)

section Sample

/-- The selectors of facet 7 stand around that of facet 8. -/
def interleaved : DiamondStorage (BitVec 160) where
  facetAddressAndSelectorPosition selector :=
    if selector = 1 then ⟨7, 0⟩ else if selector = 2 then ⟨8, 1⟩
    else if selector = 3 then ⟨7, 2⟩ else ⟨0, 0⟩
  selectors := [1, 2, 3]
  log := []

theorem interleaved_agrees :
    facets interleaved = .ok [⟨7, [1, 3]⟩, ⟨8, [2]⟩] ∧ ∃ fs, Agree interleaved fs := by
  obtain ⟨fs, hfs, -⟩ := loupe_agrees.1 interleaved (by decide)
  exact ⟨by decide, fs, hfs⟩

/-- An entry is left behind for a selector that is in no list. -/
def stray : DiamondStorage (BitVec 160) where
  facetAddressAndSelectorPosition selector := if selector = 5 then ⟨7, 0⟩ else ⟨0, 0⟩
  selectors := []
  log := []

/-- The hypotheses say nothing about the entries of other selectors. -/
theorem stray_found :
    ¬ ∀ ds : DiamondStorage (BitVec 160), ds.selectors.Nodup →
      (∀ selector ∈ ds.selectors, facetAddress ds selector ≠ 0) → ds.selectors.length ≤ 65535 →
      ∀ fs, facets ds = .ok fs → ∀ selector, (∀ f ∈ fs, selector ∉ f.functionSelectors) →
        facetAddress ds selector = 0 := by
  intro h
  have hzero : facetAddress stray 5 = 0 :=
    h stray (by decide) (by simp [stray]) (by decide) [] (by decide) 5 (by simp)
  exact absurd hzero (by decide)

end Sample

end NeonTests.Diamond
