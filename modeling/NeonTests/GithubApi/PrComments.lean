import NeonTests.Lib.Decimal
import NeonTests.Lib.Runs
import NeonTests.Lib.Text

/-!
# The GitHub client — the dApps report of a pull request

`clickfile.py`'s `add_pr_comment` deletes the report that an earlier run has left on the pull
request, and then adds its own, both with `deploy/cli/github_api_client.py`. Other users comment
at any time, also between the calls of one run.

* `commentUrl_eq` — the deletion is asked for at the address of the old comment.
* `oneReport_states_iff` — there is one report, the newest, after every run, if and only if no run
  starts with a report past the first page of comments.
-/

namespace NeonTests.GithubApi

open Runs

/-! ## The service -/

structure Comment where
  id : Nat
  body : String
  deriving DecidableEq, Repr

/-- The comments of the pull request, oldest first. -/
structure PullRequest where
  comments : List Comment
  nodup : (comments.map Comment.id).Nodup
  ids : ∀ c ∈ comments, c.id ≠ 0

/-- A comment under a new id, which is never 0. -/
def PullRequest.add (pr : PullRequest) (c : Comment) : Option PullRequest :=
  if h : c.id ≠ 0 ∧ c.id ∉ pr.comments.map Comment.id then
    some {
      comments := pr.comments ++ [c]
      nodup := by
        rw [List.map_append, List.map_singleton]
        exact pr.nodup.append (List.nodup_singleton _)
          (List.disjoint_singleton.mpr h.2)
      ids := by
        intro d hd
        rcases List.mem_append.mp hd with hd | hd
        · exact pr.ids d hd
        · rw [List.mem_singleton.mp hd]
          exact h.1 }
  else none

/-- What a listing returns: the first page. -/
def PullRequest.page (pr : PullRequest) : List Comment := pr.comments.take 30

/-- The URLs of the pull request's API, where `issuesUrl` is that of the repository's issues. -/
structure Api where
  issuesUrl : String
  number : Nat

def Api.prUrl (api : Api) : String := api.issuesUrl ++ "/" ++ toString api.number ++ "/comments"

def Api.commentAddress (api : Api) (id : Nat) : String :=
  api.issuesUrl ++ "/comments/" ++ toString id

/-- The comment at an address is deleted, and a URL of no comment is refused. -/
def Api.delete (api : Api) (pr : PullRequest) (url : String) : Option PullRequest :=
  if ∃ c ∈ pr.comments, api.commentAddress c.id = url then
    some {
      comments := pr.comments.filter fun c => api.commentAddress c.id ≠ url
      nodup := pr.nodup.sublist (List.filter_sublist.map _)
      ids := fun c hc => pr.ids c (List.mem_of_mem_filter hc) }
  else none

/-! ## The client -/

def dappsReportCommentTitle : String := "<summary>Dapps report</summary>"

def titled (c : Comment) : Bool := Text.contains c.body dappsReportCommentTitle

/-- `f"<details>{DAPPS_REPORT_COMMENT_TITLE}\n\n{msg}\n\n"` -/
def reportBody (msg : String) : String :=
  "<details>" ++ dappsReportCommentTitle ++ "\n\n" ++ msg ++ "\n\n"

/-- `add_comment_to_pr`; the service chooses the id. -/
def addCommentToPr (pr : PullRequest) (id : Nat) (msg : String) : Option PullRequest :=
  pr.add ⟨id, reportBody msg⟩

/-- The first half of `delete_last_comment`. -/
def oldCommentId (response : List Comment) : Option Nat := (response.find? titled).map Comment.id

/-- The length of a match of `/(\d+)/comments` at the start of the text. -/
def commentsMatch : List Char → Nat
  | '/' :: s =>
    let digits := s.takeWhile Python.isDecimal
    if digits ≠ [] ∧ "/comments".toList.isPrefixOf (s.dropWhile Python.isDecimal) then
      digits.length + 10
    else 0
  | _ => 0

def commentUrl (prUrl : String) (id : Nat) : String :=
  let repoUrl := String.ofList (Text.erase commentsMatch 0 prUrl.toList)
  repoUrl ++ "/comments/" ++ toString id

/-- The second half of `delete_last_comment`. -/
def deleteComment (api : Api) (pr : PullRequest) (oldCommentId : Option Nat) :
    Option PullRequest :=
  match oldCommentId with
  | none => some pr
  | some id => if id = 0 then some pr else api.delete pr (commentUrl api.prUrl id)

/-! ## The comments over time -/

/-- The pull request and the newest report on it. -/
structure History where
  pr : PullRequest
  newest : Option Comment

/-- Somebody's comment, which is no report. -/
def comment (pr : PullRequest) (c : Comment) : Option PullRequest :=
  if titled c then none else pr.add c

inductive Event
  | comment (c : Comment)
  /-- A run of the command, with the comments that arrive between the calls it makes. -/
  | addPrComment (afterList afterDelete : List Comment) (id : Nat) (markdown : String)

/-- `add_pr_comment` -/
def addPrComment (api : Api) (pr : PullRequest) (afterList afterDelete : List Comment) (id : Nat)
    (markdown : String) : Option PullRequest := do
  let old := oldCommentId pr.page
  let listed ← run comment pr afterList
  let deleted ← deleteComment api listed old
  let waiting ← run comment deleted afterDelete
  addCommentToPr waiting id markdown

def step (api : Api) (t : History) : Event → Option History
  | .comment c => (comment t.pr c).map fun pr => { t with pr }
  | .addPrComment afterList afterDelete id markdown =>
    (addPrComment api t.pr afterList afterDelete id markdown).map fun pr =>
      ⟨pr, some ⟨id, reportBody markdown⟩⟩

def PullRequest.reports (pr : PullRequest) : List Comment := pr.comments.filter titled

/-- The newest report is the only one. -/
def OneReport (t : History) : Prop := t.pr.reports = t.newest.toList

/-- The command runs while a report is past the first page. -/
def Buried (t : History) : Event → Prop
  | .comment _ => False
  | .addPrComment .. => ∃ c ∈ t.pr.comments.drop 30, titled c = true

variable {api : Api} {pr pr' : PullRequest} {c : Comment} {id : Nat} {t t' : History}

/-! ## The URLs -/

theorem isDecimal_slash : Python.isDecimal '/' = false := by decide

theorem slash_notMem_toString (n : Nat) : '/' ∉ (toString n).toList := by
  intro h
  have hdigit := Python.isDecimal_of_mem_toString h
  rw [isDecimal_slash] at hdigit
  cases hdigit

theorem commentsMatch_number (n : Nat) (rest : List Char) :
    commentsMatch ('/' :: ((toString n).toList ++ "/comments".toList) ++ rest) =
      ('/' :: ((toString n).toList ++ "/comments".toList)).length := by
  have hcomments : "/comments".toList = '/' :: "comments".toList := rfl
  rw [List.cons_append, List.append_assoc, commentsMatch, hcomments, List.cons_append,
    Python.takeWhile_toString isDecimal_slash, Python.dropWhile_toString isDecimal_slash, if_pos]
  · rw [List.length_cons, List.length_append]
    rfl
  · exact ⟨Python.toList_toString_ne_nil n, List.isPrefixOf_iff_prefix.mpr (List.prefix_append _ _)⟩

/-- The number of the pull request is taken out of its URL, and the comment's is put there. -/
theorem commentUrl_eq
    (h : ∀ tail, tail ≠ [] → tail <:+ api.issuesUrl.toList →
      commentsMatch (tail ++ '/' :: ((toString api.number).toList ++ "/comments".toList)) = 0) :
    commentUrl api.prUrl id = api.commentAddress id := by
  have hurl : api.prUrl.toList =
      api.issuesUrl.toList ++ '/' :: ((toString api.number).toList ++ "/comments".toList) := by
    simp [Api.prUrl]
  have hnumber := Text.erase_match (List.cons_ne_nil _ _) (commentsMatch_number api.number [])
  rw [List.append_nil] at hnumber
  rw [commentUrl, hurl, Text.erase_append h, hnumber, Text.erase, List.append_nil,
    String.ofList_toList, Api.commentAddress]

/-- Two addresses that end in a number agree in it. -/
theorem id_eq_of_address {front front' : String} {m n : Nat}
    (h : front ++ "/comments/" ++ toString m = front' ++ "/comments/" ++ toString n) : m = n := by
  have hchars := congrArg String.toList h
  have hslash : "/comments/".toList = "/comments".toList ++ ['/'] := rfl
  simp only [String.toList_append, hslash] at hchars
  have hrev := congrArg List.reverse hchars
  simp only [List.reverse_append, List.reverse_cons, List.append_assoc,
    List.singleton_append] at hrev
  have hdigits := (Occurrences.cut_inj (x := '/')
    (by rw [List.mem_reverse]; exact slash_notMem_toString m)
    (by rw [List.mem_reverse]; exact slash_notMem_toString n) hrev).1
  exact Python.toString_injective (String.toList_inj.mp (List.reverse_injective hdigits))

/-! ## What the calls do -/

theorem comments_add (h : pr.add c = some pr') : pr'.comments = pr.comments ++ [c] := by
  unfold PullRequest.add at h
  split at h
  · rw [← Option.some.inj h]
  · cases h

theorem reports_comment (h : comment pr c = some pr') : pr'.reports = pr.reports := by
  unfold comment at h
  split at h
  · cases h
  · next hc =>
    rw [PullRequest.reports, comments_add h, List.filter_append, List.filter_cons_of_neg hc,
      List.filter_nil, List.append_nil]
    rfl

theorem reports_comments {cs : List Comment} (h : run comment pr cs = some pr') :
    pr'.reports = pr.reports :=
  run_induction (P := fun _ _ => True) (fun _ t => t.reports = pr.reports) rfl
    (fun _ _ _ _ hpast _ hstep => (reports_comment hstep).trans hpast) steps_true h

/-- If the deletion succeeds, it is that of the comment that was found. -/
theorem comments_delete (h : api.delete pr (commentUrl api.prUrl id) = some pr') :
    pr'.comments = pr.comments.filter fun c => c.id ≠ id := by
  unfold Api.delete at h
  split at h
  · next hfound =>
    obtain ⟨c, hc, haddress⟩ := hfound
    obtain rfl := id_eq_of_address haddress
    rw [← Option.some.inj h, ← haddress]
    apply List.filter_congr
    intro d _
    exact decide_eq_decide.mpr (not_congr ⟨id_eq_of_address, fun hid => by rw [hid]⟩)
  · cases h

theorem mem_page (hc : c ∈ pr.page) : c ∈ pr.comments := List.mem_of_mem_take hc

theorem oldCommentId_eq_some {response : List Comment} (h : oldCommentId response = some id) :
    ∃ c ∈ response, titled c = true ∧ c.id = id := by
  obtain ⟨c, hfind, hid⟩ := Option.map_eq_some_iff.mp h
  exact ⟨c, List.mem_of_find?_eq_some hfind, List.find?_some hfind, hid⟩

theorem titled_eq_false_of_oldCommentId {response : List Comment} (h : oldCommentId response = none)
    (hc : c ∈ response) : titled c = false := by
  have hnone := List.find?_eq_none.mp (Option.map_eq_none_iff.mp h) c hc
  exact Bool.eq_false_of_not_eq_true hnone

theorem titled_report (id : Nat) (markdown : String) : titled ⟨id, reportBody markdown⟩ = true := by
  refine decide_eq_true ⟨"<details>".toList, ("\n\n" ++ markdown ++ "\n\n").toList, ?_⟩
  simp [reportBody]

/-- The report that is listed first goes. -/
theorem reports_deleteComment {listed deleted : PullRequest}
    (hids : ∀ id ∈ oldCommentId pr.page, id ≠ 0)
    (h : deleteComment api listed (oldCommentId pr.page) = some deleted) :
    deleted.reports = listed.reports.filter fun c => some c.id ≠ oldCommentId pr.page := by
  rcases hold : oldCommentId pr.page with _ | id
  · rw [hold] at h
    obtain rfl := Option.some.inj h
    simp
  · rw [hold, deleteComment, if_neg (hids id hold)] at h
    rw [PullRequest.reports, comments_delete h, List.filter_filter, PullRequest.reports,
      List.filter_filter]
    apply List.filter_congr
    intro c _
    simp [Bool.and_comm]

/-- What a run leaves: the reports but the one it lists first, and its own. -/
theorem reports_addPrComment {afterList afterDelete : List Comment} {markdown : String}
    (h : addPrComment api pr afterList afterDelete id markdown = some pr') :
    pr'.reports = (pr.reports.filter fun c => some c.id ≠ oldCommentId pr.page) ++
      [⟨id, reportBody markdown⟩] := by
  obtain ⟨listed, hlisted, h⟩ := Option.bind_eq_some_iff.mp h
  obtain ⟨deleted, hdeleted, h⟩ := Option.bind_eq_some_iff.mp h
  obtain ⟨waiting, hwaiting, h⟩ := Option.bind_eq_some_iff.mp h
  have hids : ∀ old ∈ oldCommentId pr.page, old ≠ 0 := by
    intro old hold
    obtain ⟨c, hc, -, rfl⟩ := oldCommentId_eq_some hold
    exact pr.ids c (mem_page hc)
  rw [PullRequest.reports, comments_add h, List.filter_append,
    List.filter_cons_of_pos (titled_report id markdown), ← reports_comments hlisted,
    ← reports_deleteComment hids hdeleted, ← reports_comments hwaiting]
  rfl

/-! ## One report -/

theorem mem_reports : c ∈ pr.reports ↔ c ∈ pr.comments ∧ titled c = true := List.mem_filter

theorem mem_page_or_mem_drop (hc : c ∈ pr.comments) : c ∈ pr.page ∨ c ∈ pr.comments.drop 30 := by
  rw [← List.take_append_drop 30 pr.comments] at hc
  exact List.mem_append.mp hc

/-- A report on the first page is the one that is deleted. -/
theorem reports_filter_of_page {newest : Option Comment} (h : pr.reports = newest.toList)
    (hclear : ∀ c ∈ pr.comments.drop 30, titled c ≠ true) :
    (pr.reports.filter fun c => some c.id ≠ oldCommentId pr.page) = [] := by
  rw [List.filter_eq_nil_iff]
  intro c hc
  obtain ⟨hcomment, htitled⟩ := mem_reports.mp hc
  have hpage : c ∈ pr.page :=
    (mem_page_or_mem_drop hcomment).resolve_right fun hdrop => hclear c hdrop htitled
  rcases hold : oldCommentId pr.page with _ | id
  · rw [titled_eq_false_of_oldCommentId hold hpage] at htitled
    cases htitled
  · obtain ⟨d, hd, hdtitled, rfl⟩ := oldCommentId_eq_some hold
    -- there is only one report, so the one that is found is this one
    have hfound := mem_reports.mpr ⟨mem_page hd, hdtitled⟩
    rw [h, Option.mem_toList] at hc hfound
    simp [Option.mem_unique hc hfound]

/-- A report past it stays. -/
theorem mem_reports_filter (hc : c ∈ pr.comments.drop 30) (htitled : titled c = true) :
    c ∈ pr.reports.filter fun c => some c.id ≠ oldCommentId pr.page := by
  refine List.mem_filter.mpr ⟨mem_reports.mpr ⟨List.mem_of_mem_drop hc, htitled⟩, ?_⟩
  refine decide_eq_true fun hid => ?_
  obtain ⟨d, hd, -, hsame⟩ := oldCommentId_eq_some hid.symm
  have hnodup := pr.nodup
  rw [← List.take_append_drop 30 pr.comments, List.map_append] at hnodup
  exact List.disjoint_of_nodup_append hnodup (List.mem_map_of_mem hd)
    (hsame ▸ List.mem_map_of_mem hc)

theorem oneReport_step {e : Event} (h : OneReport t) (hclear : ¬Buried t e)
    (hstep : step api t e = some t') : OneReport t' := by
  cases e with
  | comment c =>
    obtain ⟨pr, hpr, rfl⟩ := Option.map_eq_some_iff.mp hstep
    exact (reports_comment hpr).trans h
  | addPrComment afterList afterDelete id markdown =>
    obtain ⟨pr, hpr, rfl⟩ := Option.map_eq_some_iff.mp hstep
    have hclear' : ∀ c ∈ t.pr.comments.drop 30, titled c ≠ true :=
      fun c hc htitled => hclear ⟨c, hc, htitled⟩
    show pr.reports = _
    rw [reports_addPrComment hpr, reports_filter_of_page h hclear']
    rfl

theorem not_oneReport_of_buried {e : Event} (hburied : Buried t e)
    (hstep : step api t e = some t') : ¬OneReport t' := by
  cases e with
  | comment c => exact hburied.elim
  | addPrComment afterList afterDelete id markdown =>
    obtain ⟨pr, hpr, rfl⟩ := Option.map_eq_some_iff.mp hstep
    obtain ⟨c, hc, htitled⟩ := hburied
    intro hone
    have hlength := congrArg List.length ((reports_addPrComment hpr).symm.trans hone)
    have hpos := List.length_pos_of_mem (mem_reports_filter hc htitled)
    rw [List.length_append, List.length_singleton] at hlength
    exact absurd hlength (by simpa using hpos.ne')

theorem steps_of_oneReport {es : List Event} (hrun : (run (step api) t es).isSome)
    (h : ∀ t' ∈ states (step api) t es, OneReport t') :
    Steps (step api) (fun t e => ¬Buried t e) t es := by
  have hbad : ∀ t e, (Buried t e ∧ (step api t e).isSome) →
      ∃ t', step api t e = some t' ∧ ¬OneReport t' := by
    intro t e ⟨hburied, henabled⟩
    obtain ⟨t', ht'⟩ := Option.isSome_iff_exists.mp henabled
    exact ⟨t', ht', not_oneReport_of_buried hburied ht'⟩
  refine ((steps_of_states h hbad).and (steps_isSome hrun)).imp fun t e hstep hburied => ?_
  exact hstep.1 ⟨hburied, hstep.2⟩

/-- From a pull request without a report, or with one, there is one report, the newest, after every
run of the command, if and only if no run starts with a report past the first page. -/
theorem oneReport_states_iff (hstart : OneReport t) {es : List Event}
    (hrun : (run (step api) t es).isSome) :
    (∀ t' ∈ states (step api) t es, OneReport t') ↔
      Steps (step api) (fun t' e => ¬Buried t' e) t es :=
  ⟨steps_of_oneReport hrun, states_induction OneReport hstart fun _ _ _ => oneReport_step⟩

instance : (t : History) → (e : Event) → Decidable (Buried t e)
  | _, .comment _ => inferInstanceAs (Decidable False)
  | t, .addPrComment .. =>
    inferInstanceAs (Decidable (∃ c ∈ t.pr.comments.drop 30, titled c = true))

/-- The API of the pull request 12. -/
def sampleApi : Api := ⟨"https://api.github.com/repos/owner/repo/issues", 12⟩

def emptyPr : PullRequest := ⟨[], List.nodup_nil, by simp⟩

/-- Two runs, and a comment after each. -/
def sampleRuns : List Event :=
  [.addPrComment [] [] 1 "| 1 |", .comment ⟨2, "Thanks"⟩, .addPrComment [] [] 3 "| 2 |",
    .comment ⟨4, "LGTM"⟩]

theorem oneReport_states_iff_sampleRuns :
    (run (step sampleApi) ⟨emptyPr, none⟩ sampleRuns).isSome ∧
      ∀ t ∈ states (step sampleApi) ⟨emptyPr, none⟩ sampleRuns, OneReport t := by
  have hstart : OneReport ⟨emptyPr, none⟩ := rfl
  have hrun : (run (step sampleApi) ⟨emptyPr, none⟩ sampleRuns).isSome := by decide
  exact ⟨hrun, (oneReport_states_iff hstart hrun).mpr (by decide)⟩

/-- Thirty comments before the first run. -/
def longPr : PullRequest where
  comments := (List.range' 1 30).map fun id => ⟨id, "LGTM"⟩
  nodup := by decide
  ids := by
    intro c hc
    obtain ⟨id, hid, rfl⟩ := List.mem_map.mp hc
    exact Nat.pos_iff_ne_zero.mp (List.mem_range'_1.mp hid).1

/-- The second run does not see the report of the first, and leaves it. -/
theorem oneReport_longPr :
    ¬∀ t ∈ states (step sampleApi) ⟨longPr, none⟩
        [.addPrComment [] [] 31 "| 1 |", .addPrComment [] [] 32 "| 2 |"], OneReport t := by
  intro h
  have hclear := steps_of_oneReport (by decide) h
  revert hclear
  decide

end NeonTests.GithubApi
