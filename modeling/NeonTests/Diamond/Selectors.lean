import NeonTests.Diamond.Definitions
import NeonTests.Lib.IndexedList

/-!
# The diamond — the selector table

The array of selectors and the map of their facets agree after any cuts, and the map says
what the history of the cuts says.

* `Table` — the invariant: the array lists the selectors that have a facet, each at the
  place kept for it, and no place is beyond 16 bits;
* `Records` — the table, with the facets a history leaves in force;
* `addFunction_records` .. `removeFunction_records` — a round of each loop adds its change to
  the history;
* `selectors_consistent` — the result over whole runs.
-/

namespace NeonTests.Diamond

open Batch Fallible IndexedList Solidity

variable {Address : Type} {ds ds' : DiamondStorage Address} {selector : Selector}

-- ---------------------------------------------------------------------------
-- Writes
-- ---------------------------------------------------------------------------

theorem facetAddress_setEntry (entry : FacetAddressAndSelectorPosition Address) :
    facetAddress (setEntry selector entry ds) =
      Function.update (facetAddress ds) selector entry.facetAddress :=
  funext fun s => Function.apply_update
    (fun _ => FacetAddressAndSelectorPosition.facetAddress) _ selector entry s

theorem selectorPosition_setEntry (entry : FacetAddressAndSelectorPosition Address) :
    selectorPosition (setEntry selector entry ds) =
      Function.update (selectorPosition ds) selector entry.selectorPosition :=
  funext fun s => Function.apply_update
    (fun _ => FacetAddressAndSelectorPosition.selectorPosition) _ selector entry s

@[simp] theorem setEntry_selectors (entry : FacetAddressAndSelectorPosition Address) :
    (setEntry selector entry ds).selectors = ds.selectors := rfl

-- ---------------------------------------------------------------------------
-- The history of a selector
-- ---------------------------------------------------------------------------

/-- What a cut did to one selector. -/
structure Change (Address : Type) where
  action : FacetCutAction
  facetAddress : Address
  selector : Selector
  deriving DecidableEq, Repr

def FacetCut.changes (cut : FacetCut Address) : List (Change Address) :=
  cut.functionSelectors.map fun selector => ⟨cut.action, cut.facetAddress, selector⟩

def Call.changes (c : Call Address) : List (Change Address) :=
  c.diamondCut.flatMap FacetCut.changes

variable [Zero Address]

def Change.facet (c : Change Address) : Address :=
  match c.action with
  | .remove => 0
  | _ => c.facetAddress

/-- The facet of the last Add or Replace of the selector, if no Remove came after it. -/
def inForce (history : List (Change Address)) (selector : Selector) : Address :=
  match history.reverse.find? fun c => c.selector = selector with
  | some c => c.facet
  | none => 0

theorem inForce_concat (history : List (Change Address)) (c : Change Address) :
    inForce (history ++ [c]) = Function.update (inForce history) c.selector c.facet := by
  funext selector
  rcases eq_or_ne c.selector selector with rfl | hne
  · simp [inForce]
  · simp [inForce, hne, hne.symm]

-- ---------------------------------------------------------------------------
-- The invariant
-- ---------------------------------------------------------------------------

structure Table (ds : DiamondStorage Address) : Prop where
  facet_iff : ∀ selector, facetAddress ds selector ≠ 0 ↔ selector ∈ ds.selectors
  indexed : Indexed (fun selector => (selectorPosition ds selector).toNat) ds.selectors
  bounded : ds.selectors.length ≤ 65535

structure Records (history : List (Change Address)) (ds : DiamondStorage Address) : Prop
    extends Table ds where
  lookup : facetAddress ds = inForce history

theorem empty_records : Records [] (empty : DiamondStorage Address) where
  facet_iff := by simp [empty, facetAddress]
  indexed := indexed_nil _
  bounded := Nat.zero_le _
  lookup := rfl

/-- The length of the array fits the places. -/
theorem Table.length_fits (h : Table ds) :
    (BitVec.ofNat 16 ds.selectors.length).toNat = ds.selectors.length := by
  have := h.bounded
  rw [BitVec.toNat_ofNat, Nat.mod_eq_of_lt (by omega)]

variable [DecidableEq Address] {history : List (Change Address)} {chain : Chain Address}
  {facet : Address}

-- ---------------------------------------------------------------------------
-- Add
-- ---------------------------------------------------------------------------

theorem addFunction_ok {count count' : Uint16}
    (h : addFunction facet selector (count, ds) = .ok (count', ds')) :
    facetAddress ds selector = 0 ∧ count.toNat + 1 < 2 ^ 16 ∧ count' = count + 1 ∧
      ds'.selectors = ds.selectors ++ [selector] ∧
      facetAddress ds' = Function.update (facetAddress ds) selector facet ∧
      selectorPosition ds' = Function.update (selectorPosition ds) selector count := by
  obtain ⟨habsent, h⟩ := guard_bind_eq_ok.mp h
  obtain ⟨hcount, h⟩ := guard_bind_eq_ok.mp h
  obtain ⟨rfl, rfl⟩ := Prod.mk.inj (pure_eq_ok.mp h)
  exact ⟨habsent, hcount, rfl, rfl, facetAddress_setEntry _, selectorPosition_setEntry _⟩

theorem addFunction_records {count count' : Uint16} (hfacet : facet ≠ 0)
    (h : addFunction facet selector (count, ds) = .ok (count', ds')) (hds : Records history ds)
    (hcount : count.toNat = ds.selectors.length) :
    Records (history ++ [⟨.add, facet, selector⟩]) ds' ∧
      count'.toNat = ds'.selectors.length := by
  obtain ⟨habsent, hfits, rfl, hselectors, hfacets, hpositions⟩ := addFunction_ok h
  have hnew : selector ∉ ds.selectors := by
    rw [← hds.facet_iff, not_not]
    exact habsent
  refine ⟨⟨⟨?_, ?_, ?_⟩, ?_⟩, ?_⟩
  · intro s
    rw [hselectors, hfacets]
    rcases eq_or_ne s selector with rfl | hne
    · simp [hfacet]
    · simp [hne, ← hds.facet_iff s]
  · rw [hselectors]
    refine hds.indexed.concat ?_ ?_
    · simp [hpositions, hcount]
    · intro s hs
      have hne : s ≠ selector := ne_of_mem_of_not_mem hs hnew
      simp [hpositions, hne]
  · rw [hselectors, List.length_append, List.length_singleton]
    omega
  · rw [inForce_concat, ← hds.lookup, hfacets]
    rfl
  · rw [hselectors, List.length_append, List.length_singleton, BitVec.toNat_add, ← hcount]
    exact Nat.mod_eq_of_lt hfits

theorem addFunctions_records {selectors : List Selector}
    (h : addFunctions chain facet selectors ds = .ok ds') (hds : Records history ds) :
    Records (history ++ selectors.map fun s => ⟨.add, facet, s⟩) ds' := by
  obtain ⟨hfacet, h⟩ := guard_bind_eq_ok.mp h
  obtain ⟨_, _, h⟩ := bind_eq_ok.mp h
  obtain ⟨⟨count, done⟩, hdone, h⟩ := bind_eq_ok.mp h
  obtain rfl := pure_eq_ok.mp h
  refine (fold_induction (fun past (v : Uint16 × DiamondStorage Address) =>
    Records (history ++ past.map fun s => ⟨.add, facet, s⟩) v.2 ∧
    v.1.toNat = v.2.selectors.length) ?_ ?_ hdone).1
  · exact ⟨by simpa using hds, hds.length_fits⟩
  · rintro past s ⟨count, ds⟩ ⟨count', ds'⟩ ⟨hds, hcount⟩ hs
    rw [List.map_append, ← List.append_assoc]
    exact addFunction_records hfacet hs hds hcount

-- ---------------------------------------------------------------------------
-- Replace
-- ---------------------------------------------------------------------------

theorem replaceFunction_ok (h : replaceFunction chain facet selector ds = .ok ds') :
    facetAddress ds selector ≠ chain.this ∧ facetAddress ds selector ≠ facet ∧
      facetAddress ds selector ≠ 0 ∧ ds'.selectors = ds.selectors ∧
      facetAddress ds' = Function.update (facetAddress ds) selector facet ∧
      selectorPosition ds' = selectorPosition ds := by
  obtain ⟨hthis, h⟩ := guard_bind_eq_ok.mp h
  obtain ⟨hsame, h⟩ := guard_bind_eq_ok.mp h
  obtain ⟨hpresent, h⟩ := guard_bind_eq_ok.mp h
  obtain rfl := pure_eq_ok.mp h
  refine ⟨hthis, hsame, hpresent, rfl, facetAddress_setEntry _, ?_⟩
  rw [selectorPosition_setEntry, Function.update_eq_self]

theorem replaceFunction_records (hfacet : facet ≠ 0)
    (h : replaceFunction chain facet selector ds = .ok ds') (hds : Records history ds) :
    Records (history ++ [⟨.replace, facet, selector⟩]) ds' := by
  obtain ⟨_, _, hpresent, hselectors, hfacets, hpositions⟩ := replaceFunction_ok h
  refine ⟨⟨?_, ?_, ?_⟩, ?_⟩
  · intro s
    rw [hselectors, hfacets, ← hds.facet_iff]
    rcases eq_or_ne s selector with rfl | hne
    · simp [hfacet, hpresent]
    · simp [hne]
  · rw [hselectors, hpositions]
    exact hds.indexed
  · rw [hselectors]
    exact hds.bounded
  · rw [inForce_concat, ← hds.lookup, hfacets]
    rfl

theorem replaceFunctions_records {selectors : List Selector}
    (h : replaceFunctions chain facet selectors ds = .ok ds') (hds : Records history ds) :
    Records (history ++ selectors.map fun s => ⟨.replace, facet, s⟩) ds' := by
  obtain ⟨hfacet, h⟩ := guard_bind_eq_ok.mp h
  obtain ⟨_, _, h⟩ := bind_eq_ok.mp h
  refine fold_induction (fun past ds =>
    Records (history ++ past.map fun s => ⟨.replace, facet, s⟩) ds) ?_ ?_ h
  · simpa using hds
  · intro past s ds ds' hds hs
    rw [List.map_append, ← List.append_assoc]
    exact replaceFunction_records hfacet hs hds

-- ---------------------------------------------------------------------------
-- Remove
-- ---------------------------------------------------------------------------

omit [DecidableEq Address] in
/-- The last selector takes the place of the other, in the array and in the map; if it is the
other, it stays. -/
theorem replaceWithLastSelector_ok {last : Selector} (hds : Table ds)
    (hmem : selector ∈ ds.selectors) (hlast : ds.selectors.getLast? = some last)
    (h : replaceWithLastSelector (selectorPosition ds selector) (ds.selectors.length - 1) ds =
      .ok ds') :
    ds'.selectors.dropLast = swapRemove (selectorPosition ds selector).toNat ds.selectors ∧
      facetAddress ds' = facetAddress ds ∧
      (last ≠ selector → selectorPosition ds' last = selectorPosition ds selector) ∧
      ∀ s, s ≠ last → selectorPosition ds' s = selectorPosition ds s := by
  have hfound := hds.indexed.getElem?_pos hmem
  have hlength : 0 < ds.selectors.length := List.length_pos_of_mem hmem
  have hend := hlast
  rw [List.getLast?_eq_getElem?] at hend
  unfold replaceWithLastSelector at h
  split at h
  · next hne =>
    rw [hend] at h
    obtain ⟨_, _, h⟩ := bind_eq_ok.mp h
    obtain rfl := pure_eq_ok.mp h
    refine ⟨?_, ?_, ?_, ?_⟩
    · rw [setEntry_selectors, swapRemove, hlast]
    · rw [facetAddress_setEntry]
      exact Function.update_eq_self _ _
    · intro _
      rw [selectorPosition_setEntry, Function.update_self]
    · intro s hne
      rw [selectorPosition_setEntry, Function.update_of_ne hne]
      rfl
  · next heq =>
    obtain rfl := Except.ok.inj h
    rw [not_not] at heq
    have hplace : (selectorPosition ds selector).toNat + 1 = ds.selectors.length := by omega
    refine ⟨(swapRemove_last hplace).symm, rfl, ?_, fun _ _ => rfl⟩
    intro hne
    rw [← heq, hfound] at hend
    exact absurd (Option.some.inj hend).symm hne

theorem removeFunction_ok {count' : Nat} (hds : Table ds)
    (h : removeFunction chain selector (ds.selectors.length, ds) = .ok (count', ds')) :
    ∃ last, ds.selectors.getLast? = some last ∧ facetAddress ds selector ≠ 0 ∧
      facetAddress ds selector ≠ chain.this ∧ count' = ds.selectors.length - 1 ∧
      ds'.selectors = swapRemove (selectorPosition ds selector).toNat ds.selectors ∧
      facetAddress ds' = Function.update (facetAddress ds) selector 0 ∧
      (last ≠ selector → selectorPosition ds' last = selectorPosition ds selector) ∧
      ∀ s, s ≠ selector → s ≠ last → selectorPosition ds' s = selectorPosition ds s := by
  obtain ⟨hpresent, h⟩ := guard_bind_eq_ok.mp h
  obtain ⟨hthis, h⟩ := guard_bind_eq_ok.mp h
  obtain ⟨_, _, h⟩ := bind_eq_ok.mp h
  obtain ⟨moved, hmoved, h⟩ := bind_eq_ok.mp h
  obtain ⟨_, _, h⟩ := bind_eq_ok.mp h
  obtain ⟨rfl, rfl⟩ := Prod.mk.inj (pure_eq_ok.mp h)
  have hmem := (hds.facet_iff selector).mp hpresent
  obtain ⟨last, hlast⟩ : ∃ last, ds.selectors.getLast? = some last :=
    ⟨_, List.getLast?_eq_some_getLast (List.ne_nil_of_mem hmem)⟩
  obtain ⟨hselectors, hfacets, htaken, hrest⟩ := replaceWithLastSelector_ok hds hmem hlast hmoved
  refine ⟨last, hlast, hpresent, hthis, rfl, hselectors, ?_, ?_, ?_⟩
  · rw [facetAddress_setEntry, ← hfacets]
    rfl
  · intro hne
    rw [selectorPosition_setEntry, Function.update_of_ne hne]
    exact htaken hne
  · intro s hne hne'
    rw [selectorPosition_setEntry, Function.update_of_ne hne]
    exact hrest s hne'

theorem removeFunction_records {count' : Nat} (hds : Records history ds)
    (h : removeFunction chain selector (ds.selectors.length, ds) = .ok (count', ds')) :
    Records (history ++ [⟨.remove, facet, selector⟩]) ds' ∧ count' = ds'.selectors.length := by
  obtain ⟨last, hlast, hpresent, _, hcount, hselectors, hfacets, hmoved, hrest⟩ :=
    removeFunction_ok hds.toTable h
  have hfound := hds.indexed.getElem?_pos ((hds.facet_iff selector).mp hpresent)
  have hlength : ds'.selectors.length = ds.selectors.length - 1 := by
    rw [hselectors, length_swapRemove hlast]
  refine ⟨⟨⟨?_, ?_, ?_⟩, ?_⟩, hcount.trans hlength.symm⟩
  · intro s
    rw [hselectors, mem_swapRemove hds.indexed hfound hlast, ← hds.facet_iff s, hfacets]
    rcases eq_or_ne s selector with rfl | hne
    · simp
    · simp [hne]
  · rw [hselectors]
    refine hds.indexed.swapRemove hfound hlast ?_ ?_
    · intro hne
      exact congrArg BitVec.toNat (hmoved hne)
    · intro s hne hne'
      exact congrArg BitVec.toNat (hrest s hne hne')
  · have := hds.bounded
    omega
  · rw [inForce_concat, ← hds.lookup, hfacets]
    rfl

theorem removeFunctions_records {selectors : List Selector}
    (h : removeFunctions chain facet selectors ds = .ok ds') (hds : Records history ds) :
    Records (history ++ selectors.map fun s => ⟨.remove, facet, s⟩) ds' := by
  obtain ⟨_, _, h⟩ := bind_eq_ok.mp h
  obtain ⟨⟨count, done⟩, hdone, h⟩ := bind_eq_ok.mp h
  obtain rfl := pure_eq_ok.mp h
  refine (fold_induction (fun past (v : Nat × DiamondStorage Address) =>
    Records (history ++ past.map fun s => ⟨.remove, facet, s⟩) v.2 ∧
    v.1 = v.2.selectors.length) ?_ ?_ hdone).1
  · exact ⟨by simpa using hds, rfl⟩
  · rintro past s ⟨count, ds⟩ ⟨count', ds'⟩ ⟨hds, hcount⟩ hs
    obtain rfl : count = ds.selectors.length := hcount
    rw [List.map_append, ← List.append_assoc]
    exact removeFunction_records hds hs

-- ---------------------------------------------------------------------------
-- Cuts
-- ---------------------------------------------------------------------------

theorem cutFacet_records {cut : FacetCut Address} (h : cutFacet chain cut ds = .ok ds')
    (hds : Records history ds) : Records (history ++ cut.changes) ds' := by
  obtain ⟨facet, action, selectors⟩ := cut
  obtain ⟨_, _, h⟩ := bind_eq_ok.mp h
  cases action with
  | add => exact addFunctions_records h hds
  | replace => exact replaceFunctions_records h hds
  | remove => exact removeFunctions_records h hds

theorem diamondCut_records {this : Address} {c : Call Address}
    (h : diamondCut this c ds = .ok ds') (hds : Records history ds) :
    Records (history ++ c.changes) ds' := by
  obtain ⟨cut, hcut, h⟩ := bind_eq_ok.mp h
  obtain rfl := pure_eq_ok.mp h
  have hrecords : Records (history ++ c.changes) cut := by
    refine fold_induction (fun past ds =>
      Records (history ++ past.flatMap FacetCut.changes) ds) ?_ ?_ hcut
    · simpa using hds
    · intro past facet ds ds' hds hfacet
      simpa using cutFacet_records hfacet hds
  exact ⟨⟨hrecords.facet_iff, hrecords.indexed, hrecords.bounded⟩, hrecords.lookup⟩

-- ---------------------------------------------------------------------------
-- Runs
-- ---------------------------------------------------------------------------

/-- What the calls that returned did, in order. -/
def changes (this : Address) (calls : List (Call Address)) : List (Change Address) :=
  (Calls.returned (diamondCut this) calls empty).flatMap Call.changes

theorem cutAll_records (this : Address) (calls : List (Call Address)) :
    Records (changes this calls) (cutAll this calls empty) := by
  refine Calls.applyAll_induction (fun (past : List (Call Address)) ds =>
    Records (past.flatMap Call.changes) ds) empty_records ?_
  intro past c ds ds' hds hcut
  simpa using diamondCut_records hcut hds

/-- **The selector table.** After any cuts of an empty diamond, no selector is in the array
twice, those in the array are those with a facet, each at the place kept for it, there are at
most 65535, so that their number fits a place, and every lookup finds the facet of the last Add
or Replace that no Remove came after. A cut that reverts changes nothing. -/
theorem selectors_consistent (this : Address) (calls : List (Call Address)) :
    (∀ ds, cutAll this calls empty = ds →
      ds.selectors.Nodup ∧
      (∀ selector, facetAddress ds selector ≠ 0 ↔ selector ∈ ds.selectors) ∧
      (∀ selector ∈ ds.selectors,
        ds.selectors[(selectorPosition ds selector).toNat]? = some selector) ∧
      ds.selectors.length ≤ 65535 ∧
      (BitVec.ofNat 16 ds.selectors.length).toNat = ds.selectors.length ∧
      ∀ selector, facetAddress ds selector = inForce (changes this calls) selector) ∧
    ∀ (ds : DiamondStorage Address) c e, diamondCut this c ds = .error e →
      Calls.apply (diamondCut this) ds c = ds := by
  refine ⟨?_, ?_⟩
  · rintro ds rfl
    have hds := cutAll_records this calls
    refine ⟨hds.indexed.nodup, hds.facet_iff, ?_, hds.bounded, hds.length_fits, ?_⟩
    · exact fun selector hmem => hds.indexed.getElem?_pos hmem
    · exact fun selector => congrFun hds.lookup selector
  · exact fun ds c e => Calls.apply_of_error

/-- Four functions of facet 1: one goes to facet 2, two are removed, one of them comes back. -/
example : (cutAll (4 : Fin 5) [
    ⟨fun _ => 1, [⟨1, .add, [10, 11, 12, 13]⟩, ⟨2, .replace, [11]⟩, ⟨0, .remove, [10, 13]⟩], []⟩,
    ⟨fun _ => 1, [⟨2, .add, [10]⟩], []⟩] empty).selectors = [12, 11, 10] := by
  decide

end NeonTests.Diamond
