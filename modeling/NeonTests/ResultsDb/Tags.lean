import NeonTests.ResultsDb.Queries

/-!
# Test results database — the releases before a release

Which tags `get_previous_tags` returns.

* `releaseNumber` — the three numbers of a release tag, whichever letter it starts with;
* `tagVersion_of_release` — the version the handler makes of such a tag;
* `getPreviousTags_spec` — the result is the top of the stored releases with a lower number,
  the highest first.
-/

namespace NeonTests.ResultsDb

open Fallible Python Ranking

-- ---------------------------------------------------------------------------
-- Release tags
-- ---------------------------------------------------------------------------

/-- One or two digits, as a number. -/
def number (cs : List Char) : Option Nat :=
  if (cs.length = 1 ∨ cs.length = 2) ∧ cs.all Char.isDigit then some (Nat.ofDigitChars 10 cs 0)
  else none

/-- Major, minor and patch, compared in this order. -/
abbrev ReleaseNumber := Nat ×ₗ Nat ×ₗ Nat

def releaseNumber (tag : String) : Option ReleaseNumber :=
  match tag.toList with
  | [] => none
  | c :: rest =>
    if c = 'v' ∨ c = 't' then
      match rest.splitOn '.' with
      | [major, minor, patch] => do
        let a ← number major
        let b ← number minor
        let d ← number patch
        return toLex (a, toLex (b, d))
      | _ => none
    else none

/-- The number of a release tag. -/
def releaseKey (tag : String) : ReleaseNumber := (releaseNumber tag).getD (toLex (0, toLex (0, 0)))

/-- The stored releases that are strictly lower. -/
def lowerTags (db : Db) (repo : RepoType) (n : ReleaseNumber) : List String :=
  (db.storedTags repo).filter fun t => (releaseNumber t).any (· < n)

/-- What is documented of the packages: `\d` is a digit on ASCII text, and versions of three
numbers are compared number by number. -/
structure Packages.Documented (p : Packages) : Prop where
  isDecimal_ascii : ∀ c : Char, c.toNat < 128 → p.isDecimal c = c.isDigit
  parse_release : ∃ version : ReleaseNumber → p.Version, StrictMono version ∧
    ∀ major minor patch a b d, number major = some a → number minor = some b →
      number patch = some d →
      p.parse (String.ofList (major ++ '.' :: (minor ++ '.' :: patch))) =
        .ok (version (toLex (a, toLex (b, d))))

/-- The pattern finds nothing among the stored tags but releases written in ASCII digits. -/
def OnlyReleasesMatch (p : Packages) (db : Db) (repo : RepoType) : Prop :=
  ∀ t ∈ db.storedTags repo, startsWithTag p.isDecimal t = true → (releaseNumber t).isSome

variable {p : Packages} {db : Db} {repo : RepoType} {tag : String} {n : ReleaseNumber}

/-- How a release tag is spelt. -/
theorem exists_parts (h : releaseNumber tag = some n) :
    ∃ c major minor patch a b d, (c = 'v' ∨ c = 't') ∧
      tag.toList = c :: (major ++ '.' :: (minor ++ '.' :: patch)) ∧
      number major = some a ∧ number minor = some b ∧ number patch = some d ∧
      n = toLex (a, toLex (b, d)) := by
  unfold releaseNumber at h
  split at h
  · cases h
  · rename_i c rest hlist
    split at h
    · rename_i hc
      split at h
      · rename_i major minor patch hsplit
        simp only [Option.bind_eq_bind, Option.bind_eq_some_iff, pure, Option.some.injEq] at h
        obtain ⟨a, ha, b, hb, d, hd, hn⟩ := h
        refine ⟨c, major, minor, patch, a, b, d, hc, ?_, ha, hb, hd, hn.symm⟩
        have hjoin : ['.'].intercalate (rest.splitOn '.') = rest := List.intercalate_splitOn '.'
        rw [hlist, ← hjoin, hsplit]
        simp [List.intercalate]
      · cases h
    · cases h

theorem number_eq_some {cs : List Char} {k : Nat} (h : number cs = some k) :
    (∃ x, cs = [x] ∧ x.isDigit) ∨ ∃ x y, cs = [x, y] ∧ x.isDigit ∧ y.isDigit := by
  unfold number at h
  split at h
  · rename_i hcs
    obtain ⟨hlength, hdigits⟩ := hcs
    rcases hlength with hone | htwo
    · obtain ⟨x, rfl⟩ := List.length_eq_one_iff.mp hone
      exact .inl ⟨x, rfl, by simpa using hdigits⟩
    · obtain ⟨x, y, rfl⟩ := List.length_eq_two.mp htwo
      exact .inr ⟨x, y, rfl, by simpa using hdigits⟩
  · cases h

theorem Packages.Documented.isDecimal_of_isDigit (hp : p.Documented) {c : Char}
    (h : c.isDigit = true) : p.isDecimal c = true := by
  rw [hp.isDecimal_ascii, h]
  simp only [Char.isDigit, Bool.and_eq_true, decide_eq_true_eq] at h
  have := h.2
  rw [UInt32.le_iff_toNat_le] at this
  exact Nat.lt_of_le_of_lt this (by decide)

/-- The pattern may stop behind the digits that are there. -/
theorem mem_afterDigits (hp : p.Documented) {cs : List Char} {k : Nat} (h : number cs = some k)
    (rest : List Char) : rest ∈ afterDigits p.isDecimal (cs ++ rest) := by
  rcases number_eq_some h with ⟨x, rfl, hx⟩ | ⟨x, y, rfl, hx, hy⟩
  · have hx := hp.isDecimal_of_isDigit hx
    cases rest with
    | nil => simp [afterDigits, hx]
    | cons b rest =>
      simp only [List.cons_append, List.nil_append, afterDigits, hx, if_true]
      split <;> simp
  · simp [afterDigits, hp.isDecimal_of_isDigit hx, hp.isDecimal_of_isDigit hy]

theorem matchesTag_of_release (hp : p.Documented) (h : releaseNumber tag = some n)
    {left : List Char → Bool} (hleft : left [] = true) :
    matchesTag p.isDecimal left tag = true := by
  obtain ⟨c, major, minor, patch, a, b, d, hc, hlist, ha, hb, hd, -⟩ := exists_parts h
  have hmajor := mem_afterDigits hp ha ('.' :: (minor ++ '.' :: patch))
  have hminor := mem_afterDigits hp hb ('.' :: patch)
  have hpatch := mem_afterDigits hp hd []
  rw [List.append_nil] at hpatch
  unfold matchesTag
  rw [hlist]
  simp only [Bool.and_eq_true, Bool.or_eq_true, beq_iff_eq, List.any_eq_true]
  exact ⟨hc, _, hmajor, List.any_eq_true.mpr ⟨_, hminor, List.any_eq_true.mpr ⟨_, hpatch, hleft⟩⟩⟩

/-- Without its letter a release tag is its version. -/
theorem removeHeading_release (hp : p.Documented) {c : Char} (hc : c = 'v' ∨ c = 't')
    {major rest : List Char} {a : Nat} (ha : number major = some a)
    (hlist : tag.toList = c :: (major ++ rest)) :
    removeHeadingCharsTillFirstDigit p.isDecimal tag = String.ofList (major ++ rest) := by
  have hletter : p.isDecimal c = false := by
    rcases hc with rfl | rfl
    · rw [hp.isDecimal_ascii _ (by decide)]
      decide
    · rw [hp.isDecimal_ascii _ (by decide)]
      decide
  rw [removeHeadingCharsTillFirstDigit, hlist, List.dropWhile_cons_of_pos (by simp [hletter])]
  rcases number_eq_some ha with ⟨x, rfl, hx⟩ | ⟨x, y, rfl, hx, -⟩
  · simp [hp.isDecimal_of_isDigit hx]
  · simp [hp.isDecimal_of_isDigit hx]

/-- The version of a release tag, by its numbers alone. -/
theorem tagVersion_of_release (hp : p.Documented) : ∃ version : ReleaseNumber → p.Version,
    StrictMono version ∧
      ∀ tag, (releaseNumber tag).isSome → p.tagVersion tag = .ok (version (releaseKey tag)) := by
  obtain ⟨version, hmono, hparse⟩ := hp.parse_release
  refine ⟨version, hmono, ?_⟩
  intro tag htag
  obtain ⟨n, hn⟩ := Option.isSome_iff_exists.mp htag
  obtain ⟨c, major, minor, patch, a, b, d, hc, hlist, ha, hb, hd, rfl⟩ := exists_parts hn
  rw [Packages.tagVersion, removeHeading_release hp hc ha hlist,
    hparse major minor patch a b d ha hb hd, releaseKey, hn, Option.getD_some]

-- ---------------------------------------------------------------------------
-- The handler's sort and search
-- ---------------------------------------------------------------------------

section

variable {version : ReleaseNumber → p.Version} {tags : List String}

theorem mapM_tagVersion (htags : ∀ t ∈ tags, p.tagVersion t = .ok (version (releaseKey t))) :
    tags.mapM p.tagVersion = .ok (tags.map fun t => version (releaseKey t)) := by
  induction tags with
  | nil => rfl
  | cons t tags ih =>
    rw [List.mapM_cons, htags t List.mem_cons_self, ok_bind,
      ih fun t' ht' => htags t' (List.mem_cons_of_mem t ht'), ok_bind]
    rfl

/-- Sorting by the version is sorting by the number. -/
theorem sortedTags_eq (hmono : StrictMono version)
    (htags : ∀ t ∈ tags, p.tagVersion t = .ok (version (releaseKey t))) :
    p.sortedTags tags = .ok (ranked releaseKey tags) := by
  have hzip : (tags.map fun t => version (releaseKey t)).zip tags =
      tags.map fun t => (version (releaseKey t), t) := by
    induction tags with
    | nil => rfl
    | cons t tags ih =>
      rw [List.map_cons, List.map_cons, List.zip_cons_cons,
        ih fun t' ht' => htags t' (List.mem_cons_of_mem t ht')]
  have hsort : (ranked releaseKey tags).map (fun t => (version (releaseKey t), t)) =
      ranked Prod.fst (tags.map fun t => (version (releaseKey t), t)) :=
    List.map_insertionSort _ _ _ _ fun a _ b _ => hmono.le_iff_le.symm
  rw [Packages.sortedTags, mapM_tagVersion htags, ok_bind, hzip, ← hsort, List.map_map]
  simp [Function.comp_def]

/-- The search stops at the first tag with a lower number. -/
theorem fromFirstLower_eq (hmono : StrictMono version) (n : ReleaseNumber)
    (htags : ∀ t ∈ tags, p.tagVersion t = .ok (version (releaseKey t))) :
    p.fromFirstLower (version n) tags =
      .ok (tags.dropWhile fun t => decide (n ≤ releaseKey t)) := by
  induction tags with
  | nil => rfl
  | cons t tags ih =>
    rw [Packages.fromFirstLower, htags t List.mem_cons_self, ok_bind]
    by_cases hle : n ≤ releaseKey t
    · rw [if_neg (by rw [hmono.lt_iff_lt]; exact not_lt.mpr hle),
        List.dropWhile_cons_of_pos (by simpa using hle)]
      exact ih fun t' ht' => htags t' (List.mem_cons_of_mem t ht')
    · rw [if_pos (by rw [hmono.lt_iff_lt]; exact not_le.mp hle),
        List.dropWhile_cons_of_neg (by simpa using hle)]

end

/-- Of the tags the pattern finds, the lower ones are the lower releases. -/
theorem filter_lower (hp : p.Documented) (hstored : OnlyReleasesMatch p db repo) :
    ((db.storedTags repo).filter fun t => startsWithTag p.isDecimal t).filter
      (fun t => decide (releaseKey t < n)) = lowerTags db repo n := by
  rw [List.filter_filter, lowerTags]
  refine List.filter_congr ?_
  intro t ht
  cases hrelease : releaseNumber t with
  | none =>
    have hnot : ¬ startsWithTag p.isDecimal t = true := by
      intro hmatch
      have := hstored t ht hmatch
      simp [hrelease] at this
    simp [hnot]
  | some m =>
    have hmatch : startsWithTag p.isDecimal t = true := matchesTag_of_release hp hrelease rfl
    simp [releaseKey, hrelease, hmatch]

/-- **The releases before a release**: as many as asked for, the highest of the lower ones. -/
theorem getPreviousTags_spec (p : Packages) (hp : p.Documented) (db : Db) (repo : RepoType)
    (hstored : OnlyReleasesMatch p db repo) (tag : String) (n : ReleaseNumber)
    (htag : releaseNumber tag = some n) (limit : Nat) :
    ∃ tags, getPreviousTags p db repo tag limit = .ok tags ∧
      Top releaseKey limit (lowerTags db repo n) tags := by
  obtain ⟨version, hmono, hversion⟩ := tagVersion_of_release hp
  have hkey : releaseKey tag = n := by rw [releaseKey, htag, Option.getD_some]
  have hlatest : p.tagVersion tag = .ok (version n) := by
    rw [hversion tag (by rw [htag]; rfl), hkey]
  have htags : ∀ t ∈ (db.storedTags repo).filter (fun t => startsWithTag p.isDecimal t),
      p.tagVersion t = .ok (version (releaseKey t)) := by
    intro t ht
    obtain ⟨hmem, hmatch⟩ := List.mem_filter.mp ht
    exact hversion t (hstored t hmem hmatch)
  have hfull : fullmatchesTag p.isDecimal tag = true := matchesTag_of_release hp htag rfl
  set found := (db.storedTags repo).filter fun t => startsWithTag p.isDecimal t with hfound
  have hranked : ∀ t ∈ ranked releaseKey found, p.tagVersion t = .ok (version (releaseKey t)) :=
    fun t ht => htags t (mem_ranked.mp ht)
  have hsearch := fromFirstLower_eq hmono n hranked
  rw [dropWhile_eq_filter (pairwise_ranked found)] at hsearch
  refine ⟨((ranked releaseKey found).filter fun t => decide (releaseKey t < n)).take limit, ?_, ?_⟩
  · rw [getPreviousTags, if_pos hfull, ← hfound]
    simp only [sortedTags_eq hmono htags, ok_bind, hlatest, hsearch]
    rfl
  · rw [← filter_lower hp hstored]
    exact top_take ((ranked_perm found).filter _) ((pairwise_ranked found).filter _) limit

-- ---------------------------------------------------------------------------
-- A table of tags
-- ---------------------------------------------------------------------------

/-- Three numbers between dots. -/
def parseNumbers (s : String) : Except PyError ReleaseNumber :=
  match s.toList.splitOn '.' with
  | [major, minor, patch] =>
    match number major, number minor, number patch with
    | some a, some b, some d => .ok (toLex (a, toLex (b, d)))
    | _, _, _ => .error .valueError
  | _ => .error .valueError

/-- The packages, as far as releases and ASCII text go. -/
def asciiPackages : Packages where
  isDecimal := Char.isDigit
  Version := ReleaseNumber
  parse := parseNumbers

theorem dot_not_mem_of_number {cs : List Char} {k : Nat} (h : number cs = some k) : '.' ∉ cs := by
  have hdot : ('.' : Char).isDigit = false := by decide
  intro hmem
  rcases number_eq_some h with ⟨x, rfl, hx⟩ | ⟨x, y, rfl, hx, hy⟩
  · rw [← List.mem_singleton.mp hmem, hdot] at hx
    cases hx
  · rcases List.mem_pair.mp hmem with rfl | rfl
    · rw [hdot] at hx
      cases hx
    · rw [hdot] at hy
      cases hy

theorem asciiPackages_documented : asciiPackages.Documented where
  isDecimal_ascii _ _ := rfl
  parse_release := by
    refine ⟨id, strictMono_id, ?_⟩
    intro major minor patch a b d ha hb hd
    have hsplit : (major ++ '.' :: (minor ++ '.' :: patch)).splitOn '.' =
        [major, minor, patch] := by
      have hdots : ∀ part ∈ [major, minor, patch], '.' ∉ part := by
        simp [dot_not_mem_of_number ha, dot_not_mem_of_number hb, dot_not_mem_of_number hd]
      have hjoined := List.splitOn_intercalate '.' hdots (List.cons_ne_nil _ _)
      simpa [List.intercalate] using hjoined
    simp only [asciiPackages, parseNumbers, String.toList_ofList, hsplit, ha, hb, hd]
    rfl

/-- A report with these tags and no data. -/
def taggedReport (id : Nat) (evmTag : String) : CostReport where
  id := id
  timestamp := id
  repo := .evm
  neonEvmTag := evmTag
  proxyTag := "latest"
  evmCommitSha := none
  proxyCommitSha := "p"

/-- Two tags of one version, a higher and a lower one, and three that are no releases. -/
def taggedDb : Db where
  reports := [taggedReport 1 "v1.9.0", taggedReport 2 "v1.10.x", taggedReport 3 "t1.10.0",
    taggedReport 4 "latest", taggedReport 5 "v1.10.0", taggedReport 6 "v1.11.0",
    taggedReport 7 "feature_foo"]
  data := []
  nextReportId := 8
  reports_nodup := by decide
  reports_lt := by decide
  data_refers := by decide

theorem getPreviousTags_spec_taggedDb :
    ∃ tags, getPreviousTags asciiPackages taggedDb .evm "v1.11.0" 2 = .ok tags ∧
      Top releaseKey 2 (lowerTags taggedDb .evm (toLex (1, toLex (11, 0)))) tags :=
  getPreviousTags_spec asciiPackages asciiPackages_documented taggedDb .evm
    (by unfold OnlyReleasesMatch; decide) "v1.11.0" _ rfl 2

example : getPreviousTags asciiPackages taggedDb .evm "t1.11.0" 5 =
    .ok ["t1.10.0", "v1.10.0", "v1.9.0"] := by decide

end NeonTests.ResultsDb
