import NeonTests.Lib.Decimal

/-!
# Slack notification — the combined block

`utils/slack_notification.py`: the block of a failed build is a list of fields, a title and a text
in turn, and a section takes ten of them.

* `combinedBlock_built_iff` — the block is built, with every comment in it that is not empty, if
  and only if these fields are ten at most.
-/

namespace NeonTests.Slack

open Python Fallible

/-! ## Blocks -/

structure Field where
  text : String
  type : String
  deriving DecidableEq, Repr

structure ButtonElement where
  text : String
  url : String
  deriving DecidableEq, Repr

structure SectionBlock where
  fields : List Field
  accessory : Option ButtonElement
  deriving DecidableEq, Repr

inductive Block
  | section (b : SectionBlock)
  | divider

/-- What is used of `slack_sdk`; `δ` are the dictionaries that `to_dict` makes. -/
structure SlackSdk (ε δ : Type) where
  toDict : Block → Except ε δ
  /-- `d["fields"]` of the dictionary of a section -/
  fields : δ → List Field
  /-- the buttons that convert: their text and url are not too long -/
  Converts : ButtonElement → Prop

variable {ε δ : Type}

/-- A section converts with ten fields at most, if its button does, and its fields are kept. -/
structure SlackSdk.Documented (sdk : SlackSdk ε δ) : Prop where
  converts_iff : ∀ b, (∃ d, sdk.toDict (.section b) = .ok d) ↔
    b.fields.length ≤ 10 ∧ ∀ button ∈ b.accessory, sdk.Converts button
  fields_eq : ∀ b d, sdk.toDict (.section b) = .ok d → sdk.fields d = b.fields

/-! ## SlackNotification -/

/-- `SlackNotification` -/
structure Notification (δ : Type) where
  blocks : List δ

structure BuildInfo where
  id : String
  url : String
  deriving DecidableEq, Repr

def addBlock (sdk : SlackSdk ε δ) (n : Notification δ) (block : Block) :
    Except ε (Notification δ) := do
  let d ← sdk.toDict block
  pure ⟨n.blocks ++ [d]⟩

def mrkdwn (text : String) : Field := ⟨text, "mrkdwn"⟩

/-- `f"*Comment{number}*"`; `total` is `len(comments)`. -/
def commentTitle (total index : Nat) : String :=
  let number := if total > 1 then " " ++ toString (index + 1) else ""
  "*Comment" ++ number ++ "*"

/-- The body of the loop over `enumerate(comments)`. -/
def commentFields (total : Nat) (x : String × Nat) : List Field :=
  if x.1 = "" then [] else [mrkdwn (commentTitle total x.2), mrkdwn x.1]

def failedTestsFields (failedTests : String) : List Field :=
  if failedTests = "" then [] else [mrkdwn "*Failed Tests*", mrkdwn failedTests]

def combinedFields (buildInfo : BuildInfo) (network failedTests : String)
    (comments : List String) : List Field :=
  [mrkdwn "*Failed build*", mrkdwn ("<" ++ buildInfo.url ++ "|`" ++ buildInfo.id ++ "`>"),
    mrkdwn "*Network*", mrkdwn network] ++
  failedTestsFields failedTests ++
  comments.zipIdx.flatMap (commentFields comments.length)

def accessory (reportUrl : String) : Option ButtonElement :=
  if reportUrl = "" then none else some ⟨"VIEW REPORT", reportUrl⟩

def addCombinedBlock (sdk : SlackSdk ε δ) (n : Notification δ) (buildInfo : BuildInfo)
    (network failedTests reportUrl : String) (comments : List String) :
    Except ε (Notification δ) :=
  addBlock sdk n
    (.section ⟨combinedFields buildInfo network failedTests comments, accessory reportUrl⟩)

/-! ## Reading a block -/

/-- The titles of a list of fields with their texts. -/
def entries : List Field → List (String × String)
  | title :: text :: rest => (title.text, text.text) :: entries rest
  | _ => []

def isCommentTitle (title : String) : Bool := "*Comment".toList.isPrefixOf title.toList

/-- The entries of a block that are comments. -/
def commentEntries (fields : List Field) : List (String × String) :=
  (entries fields).filter fun x => isCommentTitle x.1

/-- The comments that are not empty, each under its title. -/
def numberedComments (comments : List String) : List (String × String) :=
  (comments.zipIdx.filter fun x => x.1 ≠ "").map fun x => (commentTitle comments.length x.2, x.1)

/-- The notification `n` with one block more, which has the comments. -/
def Built (sdk : SlackSdk ε δ) (n : Notification δ) (comments : List String)
    (n' : Notification δ) : Prop :=
  ∃ d, n'.blocks = n.blocks ++ [d] ∧ commentEntries (sdk.fields d) = numberedComments comments

/-! ## The comments of a block -/

theorem zipIdx_filter_fst (comments : List String) (k : Nat) :
    ((comments.zipIdx k).filter fun x => x.1 ≠ "").map Prod.fst =
      comments.filter fun comment => comment ≠ "" := by
  induction comments generalizing k with
  | nil => rfl
  | cons comment comments ih =>
    rw [List.zipIdx_cons, List.filter_cons, List.filter_cons]
    split
    · rw [List.map_cons, ih]
    · exact ih (k + 1)

/-- Every comment that is not empty, once and in order. -/
theorem numberedComments_texts (comments : List String) :
    (numberedComments comments).map Prod.snd = comments.filter fun comment => comment ≠ "" := by
  rw [numberedComments, List.map_map, ← zipIdx_filter_fst comments 0]
  rfl

theorem entries_append_failedTests (failedTests : String) (fields : List Field) :
    entries (failedTestsFields failedTests ++ fields) =
      (if failedTests = "" then [] else [("*Failed Tests*", failedTests)]) ++ entries fields := by
  rw [failedTestsFields]
  split <;> rfl

theorem entries_commentFields (total : Nat) (comments : List String) (k : Nat) :
    entries ((comments.zipIdx k).flatMap (commentFields total)) =
      ((comments.zipIdx k).filter fun x => x.1 ≠ "").map fun x => (commentTitle total x.2, x.1) := by
  induction comments generalizing k with
  | nil => rfl
  | cons comment comments ih =>
    rw [List.zipIdx_cons, List.flatMap_cons, List.filter_cons, commentFields]
    by_cases hempty : comment = ""
    · rw [if_pos hempty, List.nil_append, ih, if_neg (by simpa using hempty)]
    · rw [if_neg hempty, if_pos (decide_eq_true hempty), List.map_cons, ← ih (k + 1)]
      rfl

theorem isCommentTitle_commentTitle (total index : Nat) :
    isCommentTitle (commentTitle total index) = true := by
  rw [isCommentTitle, List.isPrefixOf_iff_prefix, commentTitle, String.toList_append,
    String.toList_append, List.append_assoc]
  exact List.prefix_append _ _

theorem entries_combinedFields (buildInfo : BuildInfo) (network failedTests : String)
    (comments : List String) :
    entries (combinedFields buildInfo network failedTests comments) =
      ("*Failed build*", "<" ++ buildInfo.url ++ "|`" ++ buildInfo.id ++ "`>") ::
        ("*Network*", network) ::
        ((if failedTests = "" then [] else [("*Failed Tests*", failedTests)]) ++
          (numberedComments comments)) := by
  rw [numberedComments, ← entries_commentFields, ← entries_append_failedTests, combinedFields,
    List.append_assoc]
  rfl

/-- A block's comments are read back as they were written. -/
theorem commentEntries_combinedFields (buildInfo : BuildInfo) (network failedTests : String)
    (comments : List String) :
    commentEntries (combinedFields buildInfo network failedTests comments) =
      numberedComments comments := by
  have hbuild : isCommentTitle "*Failed build*" = false := by decide
  have hnetwork : isCommentTitle "*Network*" = false := by decide
  have hfailed : isCommentTitle "*Failed Tests*" = false := by decide
  have hcomments : ∀ x ∈ numberedComments comments, isCommentTitle x.1 = true := by
    intro x hx
    obtain ⟨y, -, rfl⟩ := List.mem_map.mp hx
    exact isCommentTitle_commentTitle comments.length y.2
  rw [commentEntries, entries_combinedFields]
  split
  · simp only [List.filter_cons, hbuild, hnetwork, Bool.false_eq_true, if_false, List.nil_append]
    exact List.filter_eq_self.mpr hcomments
  · simp only [List.filter_cons, hbuild, hnetwork, hfailed, Bool.false_eq_true, if_false,
      List.singleton_append]
    exact List.filter_eq_self.mpr hcomments

/-! ## The number of fields -/

theorem length_commentFields (total : Nat) (comments : List String) (k : Nat) :
    ((comments.zipIdx k).flatMap (commentFields total)).length =
      2 * comments.countP fun comment => comment ≠ "" := by
  induction comments generalizing k with
  | nil => rfl
  | cons comment comments ih =>
    rw [List.zipIdx_cons, List.flatMap_cons, List.length_append, ih, commentFields, List.countP_cons]
    by_cases hempty : comment = ""
    · simp [hempty]
    · simp only [hempty, if_false, List.length_cons, List.length_nil, ne_eq, not_false_eq_true,
        decide_true, if_true]
      omega

theorem length_combinedFields (buildInfo : BuildInfo) (network failedTests : String)
    (comments : List String) :
    (combinedFields buildInfo network failedTests comments).length =
      4 + (if failedTests = "" then 0 else 2) +
        2 * comments.countP fun comment => comment ≠ "" := by
  rw [combinedFields, List.length_append, List.length_append, length_commentFields,
    failedTestsFields]
  split <;> rfl

/-! ## The block is built -/

theorem addBlock_eq_ok {sdk : SlackSdk ε δ} {n n' : Notification δ} {block : Block} :
    addBlock sdk n block = .ok n' ↔ ∃ d, sdk.toDict block = .ok d ∧ n' = ⟨n.blocks ++ [d]⟩ := by
  rw [addBlock, bind_eq_ok]
  constructor
  · rintro ⟨d, hd, hn⟩
    exact ⟨d, hd, (pure_eq_ok.mp hn).symm⟩
  · rintro ⟨d, hd, rfl⟩
    exact ⟨d, hd, rfl⟩

theorem mem_accessory {reportUrl : String} {button : ButtonElement} :
    button ∈ accessory reportUrl ↔ reportUrl ≠ "" ∧ button = ⟨"VIEW REPORT", reportUrl⟩ := by
  rw [accessory]
  split <;> simp_all [eq_comm]

/-- Whatever block is added has the comments; it is added if the fields are ten at most. -/
theorem combinedBlock_built_iff (sdk : SlackSdk ε δ) (hsdk : sdk.Documented) (n : Notification δ)
    (buildInfo : BuildInfo) (network failedTests reportUrl : String) (comments : List String) :
    (∃ n', addCombinedBlock sdk n buildInfo network failedTests reportUrl comments = .ok n' ∧
        Built sdk n comments n') ↔
      4 + (if failedTests = "" then 0 else 2) + 2 * comments.countP (fun comment => comment ≠ "")
        ≤ 10 ∧ (reportUrl ≠ "" → sdk.Converts ⟨"VIEW REPORT", reportUrl⟩) := by
  have hconverts := hsdk.converts_iff
    ⟨combinedFields buildInfo network failedTests comments, accessory reportUrl⟩
  rw [length_combinedFields] at hconverts
  have hbutton : (∀ button ∈ accessory reportUrl, sdk.Converts button) ↔
      (reportUrl ≠ "" → sdk.Converts ⟨"VIEW REPORT", reportUrl⟩) := by
    constructor
    · exact fun h hurl => h _ (mem_accessory.mpr ⟨hurl, rfl⟩)
    · rintro h button hmem
      obtain ⟨hurl, rfl⟩ := mem_accessory.mp hmem
      exact h hurl
  rw [← hbutton, ← hconverts]
  constructor
  · rintro ⟨n', hadd, -⟩
    obtain ⟨d, hd, -⟩ := addBlock_eq_ok.mp hadd
    exact ⟨d, hd⟩
  · rintro ⟨d, hd⟩
    refine ⟨_, addBlock_eq_ok.mpr ⟨d, hd, rfl⟩, d, rfl, ?_⟩
    rw [hsdk.fields_eq _ d hd, commentEntries_combinedFields]

/-- A section with its ten fields and any button. -/
def tenFields : SlackSdk String (List Field) where
  toDict
    | .section b =>
      if b.fields.length ≤ 10 then .ok b.fields
      else .error "fields attribute cannot exceed 10 items"
    | .divider => .ok []
  fields := id
  Converts _ := True

theorem tenFields_documented : tenFields.Documented where
  converts_iff b := by
    by_cases h : b.fields.length ≤ 10 <;> simp [tenFields, h]
  fields_eq b d h := by
    by_cases hlength : b.fields.length ≤ 10
    · simpa [tenFields, hlength, eq_comm] using h
    · simp [tenFields, hlength] at h

theorem combinedBlock_built_iff_three :
    ∃ n', addCombinedBlock tenFields ⟨[]⟩ ⟨"7", "build/7"⟩ "devnet" "" "report"
      ["a", "", "b", "c"] = .ok n' ∧ Built tenFields ⟨[]⟩ ["a", "", "b", "c"] n' :=
  (combinedBlock_built_iff tenFields tenFields_documented ⟨[]⟩ ⟨"7", "build/7"⟩ "devnet" ""
    "report" ["a", "", "b", "c"]).mpr ⟨by decide, fun _ => trivial⟩

/-- Three comments beside the failed tests are too many. -/
theorem combinedBlock_three_failed :
    ¬∃ n', addCombinedBlock tenFields ⟨[]⟩ ⟨"7", "build/7"⟩ "devnet" "oz: 2" ""
      ["a", "b", "c"] = .ok n' ∧ Built tenFields ⟨[]⟩ ["a", "b", "c"] n' := by
  rintro ⟨n', hadd, -⟩
  obtain ⟨d, hd, -⟩ := addBlock_eq_ok.mp hadd
  have hfields := ((tenFields_documented.converts_iff _).mp ⟨d, hd⟩).1
  rw [length_combinedFields] at hfields
  exact absurd hfields (by decide)

end NeonTests.Slack
