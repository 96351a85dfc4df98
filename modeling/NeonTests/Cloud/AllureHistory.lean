import Mathlib.Data.List.Dedup
import NeonTests.Clickfile.Run
import NeonTests.Cloud.RoundTrip
import NeonTests.Lib.Decimal

/-!
# Cloud — the history of the Allure reports

`upload_allure_report` of `clickfile.py` puts a report below its group, network, branch and build;
`get_allure_history` reads the builds back as the first number in each listed prefix.

* `getAllureHistory_newest_iff` — the history is that of the newest build, if and only if the first
  number in the path is the same; or there is none there, and no greater one comes first in the name
  of a folder that was below the path before (that of a branch, `develop/99-fix` beside `develop`).
-/

namespace NeonTests.Cloud

open Python Text Pathlib Fallible Clickfile

/-! ## The commands -/

variable {ε β : Type}

/-- `Path(name) / network / branch` -/
def allurePath (name network branch : String) : PurePath := PurePath.parse name / network / branch

/-- The uploads of `upload_allure_report`; `index` is the page that leads to the report. -/
def uploadAllureReport (store : Store ε β) (bucket : Dict String β) (name : String)
    (network : EnvName) (branch buildId : String) (report : Tree β) (index : β) :
    Except ε (Dict String β) := do
  let path := allurePath name network.value branch
  let bucket ← upload store bucket (path / buildId) (.directory report)
  upload store bucket path (.file "index.html" index)

/-- `re.findall(r"(\d+)", s)` -/
def findNumbers (s : String) : List String := words (fun c => !isDecimal c) s

/-- The numbers of the runs whose prefixes are listed. -/
def previousRuns (prefixes : List String) : List Nat :=
  prefixes.filterMap fun run => (findNumbers run).head?.map fun number => int number.toList

/-- The source and the destination of the download, if there is one; `listPrefixes text` are the
common prefixes that are listed for `Prefix=text` and the slash as delimiter. -/
def getAllureHistory (listPrefixes : String → List String) (name network branch : String)
    (destination : PurePath) : Option (PurePath × PurePath) :=
  let path := allurePath name network branch
  (previousRuns (listPrefixes (path.str ++ "/"))).max?.map fun run =>
    (path / toString run / "history", destination / "history")

/-! ## What is listed -/

/-- The common prefixes directly below a path. -/
def ListsPrefixes (bucket : Dict String β) (listPrefixes : String → List String) : Prop :=
  ∀ text x, x ∈ listPrefixes text ↔ ∃ name : String, '/' ∉ name.toList ∧
    x = text ++ name ++ "/" ∧ ∃ key ∈ bucket.keys, x.toList <+: key.toList

/-- A report with the number of its build. -/
structure Build (β : Type) where
  id : Nat
  report : Tree β
  index : β
  nonempty : report.files.keys ≠ []

def uploadBuilds (store : Store ε β) (name : String) (network : EnvName) (branch : String)
    (bucket : Dict String β) (builds : List (Build β)) : Except ε (Dict String β) :=
  builds.foldlM (fun bucket build => uploadAllureReport store bucket name network branch
    (toString build.id) build.report build.index) bucket

variable {store : Store ε β} {bucket bucket' : Dict String β} {path : PurePath}

theorem mem_keys_set {key k : String} {body : β} :
    key ∈ (bucket.set k body).keys ↔ key = k ∨ key ∈ bucket.keys := by
  rw [Dict.mem_keys, Dict.mem_keys, Dict.get?_set]
  by_cases h : k = key
  · simp [h]
  · simp [h, Ne.symm h]

theorem mem_keys_of_upload (hstore : store.Documented) {tree : Tree β}
    (h : upload store bucket path (.directory tree) = .ok bucket') {key : String} :
    key ∈ bucket'.keys ↔ (∃ q ∈ tree.files.keys, key = (path / q).str) ∨ key ∈ bucket.keys := by
  by_cases hown : ∃ q ∈ tree.files.keys, key = (path / q).str
  · obtain ⟨q, hq, rfl⟩ := hown
    have hkey : (path / q).str ∈ bucket'.keys := by
      rw [Dict.mem_keys, get?_of_upload hstore h hq]
      exact Dict.mem_keys.mp hq
    exact ⟨fun _ => .inl ⟨q, hq, rfl⟩, fun _ => hkey⟩
  · have hother : bucket'.get? key = bucket.get? key :=
      get?_of_upload_other hstore h fun q hq heq => hown ⟨q, hq, heq.symm⟩
    rw [Dict.mem_keys, hother, ← Dict.mem_keys]
    simp [hown]

/-- The keys of one build: those of its files, and the page beside the builds. -/
def Build.Writes (build : Build β) (path : PurePath) (key : String) : Prop :=
  (∃ q ∈ build.report.files.keys, key = (path / toString build.id / q).str) ∨
    key = (path / "index.html").str

theorem mem_keys_of_build (hstore : store.Documented) {name branch : String} {network : EnvName}
    {build : Build β} (h : uploadAllureReport store bucket name network branch (toString build.id)
      build.report build.index = .ok bucket') {key : String} :
    key ∈ bucket'.keys ↔
      build.Writes (allurePath name network.value branch) key ∨ key ∈ bucket.keys := by
  obtain ⟨next, hnext, hindex⟩ := bind_eq_ok.mp h
  rw [hstore.uploads hindex, mem_keys_set, mem_keys_of_upload hstore hnext, Build.Writes, or_assoc]
  exact or_left_comm

theorem mem_keys_of_builds (hstore : store.Documented) {name branch : String} {network : EnvName}
    {builds : List (Build β)}
    (h : uploadBuilds store name network branch bucket builds = .ok bucket') (key : String) :
    key ∈ bucket'.keys ↔
      (∃ build ∈ builds, build.Writes (allurePath name network.value branch) key) ∨
      key ∈ bucket.keys := by
  induction builds generalizing bucket with
  | nil =>
    rw [← Except.ok.inj h]
    simp
  | cons build builds ih =>
    rw [uploadBuilds, List.foldlM_cons] at h
    obtain ⟨next, hnext, hrest⟩ := bind_eq_ok.mp h
    rw [ih hrest, mem_keys_of_build hstore hnext]
    simp only [List.mem_cons, exists_eq_or_imp]
    rw [or_left_comm, or_assoc]

/-! ## Paths -/

theorem notMem_toString {c : Char} (hc : isDecimal c = false) (n : Nat) :
    c ∉ (toString n).toList := by
  intro hmem
  rw [isDecimal_of_mem_toString hmem] at hc
  cases hc

theorem isPart_toString (n : Nat) : IsPart (toString n) := by
  refine ⟨fun h => toList_toString_ne_nil n ?_, fun h => ?_, notMem_toString (by decide) n⟩
  · exact congrArg String.toList h
  · have hdot : '.' ∈ (toString n).toList := by
      rw [h]
      exact List.mem_cons_self
    exact notMem_toString (by decide) n hdot

theorem parts_div_part (p : PurePath) {s : String} (h : IsPart s) :
    (p / s).root = p.root ∧ (p / s).parts = p.parts ++ [s] := by
  rw [div_parse, parse_part h]
  exact div_of_relative rfl

theorem str_div_part (hpath : path.parts ≠ []) {s : String} (h : IsPart s) :
    (path / s).str = path.str ++ "/" ++ s := by
  rw [div_parse, parse_part h, str_div hpath rfl (List.cons_ne_nil s []), join_singleton]

theorem isPart_value (network : EnvName) : IsPart network.value := by
  cases network <;> decide

theorem allurePath_parts_ne_nil (name : String) (network : EnvName) {branch : String}
    (hbranch : (PurePath.parse branch).root = .relative) :
    (allurePath name network.value branch).parts ≠ [] := by
  rw [allurePath, div_parse _ branch, (div_of_relative hbranch).2,
    (parts_div_part _ (isPart_value network)).2]
  simp

/-- `f"{path}/{folder}/"` -/
def folderPrefix (path : PurePath) (folder : String) : String := path.str ++ "/" ++ folder ++ "/"

/-- A folder directly below the path, of which the bucket has a key. -/
def HasFolder (bucket : Dict String β) (path : PurePath) (folder : String) : Prop :=
  '/' ∉ folder.toList ∧ ∃ key ∈ bucket.keys, (folderPrefix path folder).toList <+: key.toList

/-- The prefixes listed below the path are those of the builds and of the folders before. -/
theorem mem_listed_iff (hstore : store.Documented) {name branch : String} {network : EnvName}
    (hbranch : (PurePath.parse branch).root = .relative) {builds : List (Build β)}
    (h : uploadBuilds store name network branch bucket builds = .ok bucket')
    {listPrefixes : String → List String} (hlists : ListsPrefixes bucket' listPrefixes)
    (hpath : allurePath name network.value branch = path) (x : String) :
    x ∈ listPrefixes (path.str ++ "/") ↔ ∃ folder, x = folderPrefix path folder ∧
      ((∃ build ∈ builds, folder = toString build.id) ∨ HasFolder bucket path folder) := by
  have hparts : path.parts ≠ [] := hpath ▸ allurePath_parts_ne_nil name network hbranch
  have hkeys := mem_keys_of_builds hstore h
  rw [hpath] at hkeys
  have hkey (build : Build β) (q : PurePath) (hq : q ∈ build.report.files.keys) :
      (path / toString build.id / q).str =
        folderPrefix path (toString build.id) ++ join '/' q.parts := by
    obtain ⟨hroot, hqparts, -⟩ := build.report.relative q hq
    have hpart := isPart_toString build.id
    rw [str_div (by rw [(parts_div_part path hpart).2]; simp) hroot hqparts,
      str_div_part hparts hpart]
    rfl
  rw [hlists]
  constructor
  · intro ⟨piece, hslash, hx, key, hmem, hstarts⟩
    refine ⟨piece, hx, ?_⟩
    rcases (hkeys key).mp hmem with ⟨build, hbuild, ⟨q, hq, rfl⟩ | rfl⟩ | hold
    · obtain ⟨more, hmore⟩ := hstarts
      rw [hx, hkey build q hq, folderPrefix] at hmore
      simp only [String.toList_append, List.append_assoc, List.append_cancel_left_eq] at hmore
      obtain ⟨hpiece, -⟩ :=
        Occurrences.cut_inj hslash (isPart_toString build.id).2.2 hmore
      exact .inl ⟨build, hbuild, String.toList_inj.mp hpiece⟩
    · obtain ⟨more, hmore⟩ := hstarts
      rw [hx, str_div_part hparts (by decide)] at hmore
      simp only [String.toList_append, List.append_assoc, List.append_cancel_left_eq] at hmore
      have hindex : '/' ∈ "index.html".toList := by
        rw [← hmore]
        exact List.mem_append_right _ List.mem_cons_self
      exact absurd hindex (by decide)
    · rw [hx] at hstarts
      exact .inr ⟨hslash, key, hold, hstarts⟩
  · rintro ⟨folder, hx, ⟨build, hbuild, rfl⟩ | ⟨hslash, key, hold, hstarts⟩⟩
    · obtain ⟨q, hq⟩ := List.exists_mem_of_ne_nil _ build.nonempty
      refine ⟨toString build.id, (isPart_toString build.id).2.2, hx, _,
        (hkeys _).mpr (.inl ⟨build, hbuild, .inl ⟨q, hq, rfl⟩⟩), ?_⟩
      rw [hx, hkey build q hq, String.toList_append]
      exact List.prefix_append _ _
    · exact ⟨folder, hslash, hx, key, (hkeys key).mpr (.inr hold), hx ▸ hstarts⟩

/-! ## The build that is read -/

/-- The numbers of a prefix are those of the path and the folder. -/
theorem findNumbers_folderPrefix (path : PurePath) (folder : String) :
    findNumbers (folderPrefix path folder) = findNumbers path.str ++ findNumbers folder := by
  have hslash : (!isDecimal '/') = true := by decide
  have hpieces : folderPrefix path folder =
      path.str ++ String.singleton '/' ++ folder ++ String.singleton '/' ++ "" := by
    rw [String.append_empty]
    rfl
  rw [hpieces, findNumbers, words_append_singleton hslash, words_append_singleton hslash]
  exact List.append_nil _

theorem findNumbers_toString (build : Nat) : findNumbers (toString build) = [toString build] :=
  words_of_forall (fun c hc => by rw [isDecimal_of_mem_toString hc]; rfl)
    fun h => toList_toString_ne_nil build (congrArg String.toList h)

/-- `int` of the first number in a text. -/
def firstNumber (s : String) : Option Nat :=
  (findNumbers s).head?.map fun number => int number.toList

theorem firstNumber_toString (build : Nat) : firstNumber (toString build) = some build := by
  rw [firstNumber, findNumbers_toString]
  exact congrArg some (int_toString build)

/-- A number in the path comes before that of the folder. -/
theorem firstNumber_folderPrefix (path : PurePath) (folder : String) :
    firstNumber (folderPrefix path folder) =
      (firstNumber path.str).or (firstNumber folder) := by
  rw [firstNumber, findNumbers_folderPrefix, firstNumber]
  rcases findNumbers path.str with _ | ⟨number, numbers⟩
  · rfl
  · rfl

theorem mem_previousRuns_iff {prefixes : List String} {Listed : String → Prop}
    (hprefixes : ∀ x, x ∈ prefixes ↔ ∃ folder, x = folderPrefix path folder ∧ Listed folder)
    (run : Nat) : run ∈ previousRuns prefixes ↔
      ∃ folder, Listed folder ∧ (firstNumber path.str).or (firstNumber folder) = some run := by
  rw [previousRuns, List.mem_filterMap]
  constructor
  · intro ⟨x, hx, hread⟩
    obtain ⟨folder, rfl, hlisted⟩ := (hprefixes x).mp hx
    exact ⟨folder, hlisted, by rw [← firstNumber_folderPrefix]; exact hread⟩
  · intro ⟨folder, hlisted, hread⟩
    refine ⟨_, (hprefixes _).mpr ⟨folder, rfl, hlisted⟩, ?_⟩
    rw [← firstNumber_folderPrefix] at hread
    exact hread

theorem toString_div_inj {m n : Nat}
    (h : path / toString m / "history" = path / toString n / "history") : m = n := by
  have hpart : IsPart "history" := by decide
  have hparts := congrArg PurePath.parts h
  rw [(parts_div_part _ hpart).2, (parts_div_part _ hpart).2,
    (parts_div_part _ (isPart_toString m)).2, (parts_div_part _ (isPart_toString n)).2] at hparts
  simp only [List.append_cancel_right_eq, List.append_cancel_left_eq, List.cons.injEq, and_true]
    at hparts
  exact toString_injective hparts

section Downloaded

variable {name branch : String} {network : EnvName} {builds : List (Build β)}
  {listPrefixes : String → List String} {newest : Build β}

/-- The number of the newest build is the greatest that is read. -/
def ReadsNewest (bucket : Dict String β) (path : PurePath) (newest : Nat) : Prop :=
  match firstNumber path.str with
  | some number => number = newest
  | none => ∀ folder, HasFolder bucket path folder →
      ∀ number ∈ firstNumber folder, number ≤ newest

/-- The runs that are read, where the builds are among the folders. -/
theorem max_previousRuns_iff {prefixes : List String}
    (hprefixes : ∀ x, x ∈ prefixes ↔ ∃ folder, x = folderPrefix path folder ∧
      ((∃ build ∈ builds, folder = toString build.id) ∨ HasFolder bucket path folder))
    (hnewest : newest ∈ builds) (hmax : ∀ build ∈ builds, build.id ≤ newest.id) :
    (previousRuns prefixes).max? = some newest.id ↔ ReadsNewest bucket path newest.id := by
  have hruns := mem_previousRuns_iff hprefixes
  have hlisted : (∃ build ∈ builds, toString newest.id = toString build.id) ∨
      HasFolder bucket path (toString newest.id) := .inl ⟨newest, hnewest, rfl⟩
  rw [List.max?_eq_some_iff, ReadsNewest]
  rcases hpath : firstNumber path.str with _ | number
  · simp only [hpath, Option.none_or] at hruns
    have hown : newest.id ∈ previousRuns prefixes :=
      (hruns _).mpr ⟨_, hlisted, firstNumber_toString _⟩
    constructor
    · rintro ⟨-, hle⟩ folder hfolder number hnumber
      exact hle number ((hruns number).mpr ⟨folder, .inr hfolder, hnumber⟩)
    · intro hold
      refine ⟨hown, fun run hrun => ?_⟩
      obtain ⟨folder, ⟨build, hbuild, rfl⟩ | hfolder, hread⟩ := (hruns run).mp hrun
      · rw [firstNumber_toString, Option.some.injEq] at hread
        exact hread ▸ hmax build hbuild
      · exact hold folder hfolder run hread
  · -- every folder is read as the number in the path
    have hall (run : Nat) : run ∈ previousRuns prefixes ↔ number = run := by
      rw [hruns, hpath]
      exact ⟨fun ⟨_, _, hread⟩ => Option.some.inj hread, fun hread => ⟨_, hlisted, hread ▸ rfl⟩⟩
    simp only [hall]
    exact ⟨fun h => h.1, fun h => ⟨h, fun run hrun => by omega⟩⟩

/-- The history of the newest build is downloaded, if and only if its number is the greatest that
is read. -/
theorem getAllureHistory_newest_iff (hstore : store.Documented)
    (hbranch : (PurePath.parse branch).root = .relative)
    (h : uploadBuilds store name network branch bucket builds = .ok bucket')
    (hlists : ListsPrefixes bucket' listPrefixes)
    (hpath : allurePath name network.value branch = path)
    (destination : PurePath) (hnewest : newest ∈ builds)
    (hmax : ∀ build ∈ builds, build.id ≤ newest.id) :
    getAllureHistory listPrefixes name network.value branch destination =
        some (path / toString newest.id / "history", destination / "history") ↔
      ReadsNewest bucket path newest.id := by
  rw [← max_previousRuns_iff (mem_listed_iff hstore hbranch h hlists hpath) hnewest hmax,
    getAllureHistory, hpath]
  rcases (previousRuns (listPrefixes (path.str ++ "/"))).max? with _ | run
  · simp
  · rw [Option.map_some, Option.some.injEq, Option.some.injEq, Prod.mk.injEq]
    constructor
    · intro ⟨hsource, _⟩
      exact toString_div_inj hsource
    · rintro rfl
      exact ⟨rfl, rfl⟩

end Downloaded

/-- What the keys have behind the text, up to the next slash. -/
def commonPrefix (text key : List Char) : Option (List Char) :=
  if text <+: key ∧ '/' ∈ key.drop text.length then
    some (text ++ (key.drop text.length).takeWhile (· ≠ '/') ++ ['/'])
  else none

def commonPrefixes (bucket : Dict String β) (text : String) : List String :=
  (bucket.keys.filterMap fun key => commonPrefix text.toList key.toList).dedup.map String.ofList

theorem takeWhile_slash {name more : List Char} (h : '/' ∉ name) :
    (name ++ '/' :: more).takeWhile (· ≠ '/') = name := by
  have hname : ∀ c ∈ name, decide (c ≠ '/') = true :=
    fun c hc => decide_eq_true fun hslash => h (hslash ▸ hc)
  rw [List.takeWhile_append_of_pos hname]
  simp

theorem commonPrefix_eq_some_iff {text key x : List Char} :
    commonPrefix text key = some x ↔
      ∃ name, '/' ∉ name ∧ x = text ++ name ++ ['/'] ∧ x <+: key := by
  rw [commonPrefix]
  constructor
  · intro h
    split at h
    · next hcut =>
      obtain ⟨⟨rest, hrest⟩, hslash⟩ := hcut
      rw [← hrest, List.drop_left] at h hslash
      obtain ⟨name, more, rfl, hname⟩ := List.eq_append_cons_of_mem hslash
      rw [takeWhile_slash hname] at h
      exact ⟨name, hname, (Option.some.inj h).symm, more,
        by rw [← Option.some.inj h, ← hrest]; simp⟩
    · cases h
  · intro ⟨name, hname, hx, more, hmore⟩
    have hkey : key = text ++ (name ++ '/' :: more) := by
      rw [← hmore, hx]
      simp
    rw [hkey, List.drop_left, takeWhile_slash hname, if_pos ⟨List.prefix_append _ _, by simp⟩, hx]

theorem listsPrefixes_commonPrefixes (bucket : Dict String β) :
    ListsPrefixes bucket (commonPrefixes bucket) := by
  intro text x
  rw [commonPrefixes, List.mem_map]
  constructor
  · intro ⟨xs, hxs, hx⟩
    obtain ⟨key, hkey, hcut⟩ := List.mem_filterMap.mp (List.mem_dedup.mp hxs)
    obtain ⟨name, hname, hparts, hstarts⟩ := commonPrefix_eq_some_iff.mp hcut
    refine ⟨String.ofList name, by rwa [String.toList_ofList], ?_, key, hkey, ?_⟩
    · rw [← hx, hparts, ← String.toList_inj]
      simp
    · rwa [← hx, String.toList_ofList]
  · intro ⟨name, hname, hx, key, hkey, hstarts⟩
    have hcut : commonPrefix text.toList key.toList = some x.toList := by
      refine commonPrefix_eq_some_iff.mpr ⟨name.toList, hname, ?_, hstarts⟩
      rw [hx, String.toList_append, String.toList_append]
      rfl
    exact ⟨x.toList, List.mem_dedup.mpr (List.mem_filterMap.mpr ⟨key, hkey, hcut⟩),
      String.ofList_toList⟩

/-- A build with the report of the tests. -/
def build (id : Nat) : Build String := ⟨id, report, "to the report", by decide⟩

/-- A bucket with the report of a branch that is nested in `develop`. -/
def nestedBucket (branch : String) : Dict String String :=
  ⟨[("oz/night-stand/" ++ branch ++ "/7/index.html", "4")], List.nodup_singleton _⟩

theorem allurePath_nightStand (branch : String) : allurePath "oz" EnvName.nightStand.value branch =
    allurePath "oz" "night-stand" branch := rfl

theorem hasFolder_nestedBucket {folder : String}
    (h : HasFolder (nestedBucket "develop/3-fix")
      (allurePath "oz" "night-stand" "develop") folder) : folder = "3-fix" := by
  obtain ⟨hslash, key, hkey, more, hmore⟩ := h
  rw [List.mem_singleton.mp hkey, folderPrefix] at hmore
  have hstr : (allurePath "oz" "night-stand" "develop").str = "oz/night-stand/develop" := by decide
  have hlist : ("oz/night-stand/" ++ "develop/3-fix" ++ "/7/index.html").toList =
      "oz/night-stand/develop".toList ++ ("/".toList ++ ("3-fix".toList ++ '/' ::
        "7/index.html".toList)) := by decide
  rw [hstr, hlist] at hmore
  simp only [String.toList_append, List.append_assoc, List.append_cancel_left_eq] at hmore
  exact String.toList_inj.mp (Occurrences.cut_inj hslash (by decide) hmore).1

theorem getAllureHistory_newest_iff_develop :
    ∃ bucket', uploadBuilds pages "oz" .nightStand "develop" (nestedBucket "develop/3-fix")
        [build 9, build 12] = .ok bucket' ∧
      getAllureHistory (commonPrefixes bucket') "oz" "night-stand" "develop" (.parse "out") =
        some (allurePath "oz" "night-stand" "develop" / toString 12 / "history",
          PurePath.parse "out" / "history") := by
  obtain ⟨bucket', h⟩ : ∃ bucket', uploadBuilds pages "oz" .nightStand "develop"
      (nestedBucket "develop/3-fix") [build 9, build 12] = .ok bucket' := ⟨_, rfl⟩
  have hlists := listsPrefixes_commonPrefixes bucket'
  refine ⟨bucket', h, (getAllureHistory_newest_iff pages_documented rfl h hlists
    (allurePath_nightStand _) (.parse "out") (List.mem_cons_of_mem _ List.mem_cons_self)
    (by simp [build])).mpr ?_⟩
  have hnone : firstNumber (allurePath "oz" "night-stand" "develop").str = none := by decide
  rw [ReadsNewest, hnone]
  intro folder hfolder number hnumber
  rw [hasFolder_nestedBucket hfolder] at hnumber
  have hthree : firstNumber "3-fix" = some 3 := by decide
  rw [hthree] at hnumber
  obtain rfl := Option.some.inj hnumber
  decide

/-- On a branch with a number, the number is taken for the build; and the number of a branch that
is nested in this one, if it is greater. -/
theorem getAllureHistory_release :
    (∃ bucket', uploadBuilds pages "oz" .nightStand "release-1" .empty [build 9, build 12] =
        .ok bucket' ∧
      getAllureHistory (commonPrefixes bucket') "oz" "night-stand" "release-1" (.parse "out") ≠
        some (allurePath "oz" "night-stand" "release-1" / toString 12 / "history",
          PurePath.parse "out" / "history")) ∧
    ∃ bucket', uploadBuilds pages "oz" .nightStand "develop" (nestedBucket "develop/99-fix")
        [build 9, build 12] = .ok bucket' ∧
      getAllureHistory (commonPrefixes bucket') "oz" "night-stand" "develop" (.parse "out") ≠
        some (allurePath "oz" "night-stand" "develop" / toString 12 / "history",
          PurePath.parse "out" / "history") := by
  constructor
  · obtain ⟨bucket', h⟩ : ∃ bucket',
        uploadBuilds pages "oz" .nightStand "release-1" .empty [build 9, build 12] = .ok bucket' :=
      ⟨_, rfl⟩
    have hlists := listsPrefixes_commonPrefixes bucket'
    refine ⟨bucket', h, fun hnewest => ?_⟩
    have hreads := (getAllureHistory_newest_iff pages_documented rfl h hlists
      (allurePath_nightStand _) (.parse "out") (List.mem_cons_of_mem _ List.mem_cons_self)
      (by simp [build])).mp hnewest
    have hone : firstNumber (allurePath "oz" "night-stand" "release-1").str = some 1 := by decide
    rw [ReadsNewest, hone] at hreads
    exact absurd hreads (by decide)
  · obtain ⟨bucket', h⟩ : ∃ bucket', uploadBuilds pages "oz" .nightStand "develop"
        (nestedBucket "develop/99-fix") [build 9, build 12] = .ok bucket' := ⟨_, rfl⟩
    have hlists := listsPrefixes_commonPrefixes bucket'
    refine ⟨bucket', h, fun hnewest => ?_⟩
    have hreads := (getAllureHistory_newest_iff pages_documented rfl h hlists
      (allurePath_nightStand _) (.parse "out") (List.mem_cons_of_mem _ List.mem_cons_self)
      (by simp [build])).mp hnewest
    have hnone : firstNumber (allurePath "oz" "night-stand" "develop").str = none := by decide
    rw [ReadsNewest, hnone] at hreads
    have hfolder : HasFolder (nestedBucket "develop/99-fix")
        (allurePath "oz" "night-stand" "develop") "99-fix" :=
      ⟨by decide, _, List.mem_singleton.mpr rfl, by decide⟩
    exact absurd (hreads "99-fix" hfolder 99 (by decide)) (by decide)

end NeonTests.Cloud
