import Mathlib.Data.List.Perm.Subperm
import NeonTests.Cloud.Definitions

/-!
# Cloud — downloading what was uploaded

A download of the path of an upload has the files of the tree if and only if the client brings
every key that is listed, and these are cut to the files, the last one for every file with its
content (`download_upload_iff`).

With no other key behind the text of the path, this is that the tree has a thousand files at most
and that the text does not occur again behind it in a key (`recovered_iff_of_alone`).
-/

namespace NeonTests.Cloud

open Text Pathlib Fallible

variable {ε β : Type} {store : Store ε β} {bucket bucket' : Dict String β} {path home : PurePath}

/-! ## The bucket after an upload -/

theorem str_div_inj {p q : PurePath} (hp : p.root = .relative) (hq : q.root = .relative)
    (h : (path / p).str = (path / q).str) : p = q := by
  have hparts := congrArg PurePath.parts (str_injective h)
  rw [(div_of_relative hp).2, (div_of_relative hq).2, List.append_cancel_left_eq] at hparts
  exact PurePath.ext_iff'.mpr ⟨hp.trans hq.symm, hparts⟩

theorem div_inj {p q : PurePath} (hp : p.root = .relative) (hq : q.root = .relative)
    (h : home / p = home / q) : p = q :=
  str_div_inj hp hq (congrArg PurePath.str h)

theorem uploadObjects_cons (hstore : store.Documented) {f : PurePath × β}
    {items : List (PurePath × β)}
    (h : (f :: items).foldlM (uploadObject store path) bucket = .ok bucket') :
    items.foldlM (uploadObject store path) (bucket.set (path / f.1).str f.2) = .ok bucket' := by
  rw [List.foldlM_cons] at h
  obtain ⟨next, hnext, hrest⟩ := bind_eq_ok.mp h
  rwa [hstore.uploads hnext] at hrest

theorem get?_of_uploadObjects_other (hstore : store.Documented) {items : List (PurePath × β)}
    (h : items.foldlM (uploadObject store path) bucket = .ok bucket') {key : String}
    (hkey : ∀ f ∈ items, (path / f.1).str ≠ key) : bucket'.get? key = bucket.get? key := by
  induction items generalizing bucket with
  | nil => rw [← Except.ok.inj h]
  | cons f items ih =>
    rw [ih (uploadObjects_cons hstore h) fun g hg => hkey g (List.mem_cons_of_mem f hg),
      Dict.get?_set, if_neg (hkey f List.mem_cons_self)]

theorem get?_of_uploadObjects (hstore : store.Documented) {items : List (PurePath × β)}
    (hrelative : ∀ f ∈ items, f.1.root = .relative) (hnodup : (items.map Prod.fst).Nodup)
    (h : items.foldlM (uploadObject store path) bucket = .ok bucket') {f : PurePath × β}
    (hf : f ∈ items) : bucket'.get? (path / f.1).str = some f.2 := by
  induction items generalizing bucket with
  | nil => cases hf
  | cons g items ih =>
    have hrest := uploadObjects_cons hstore h
    rw [List.map_cons, List.nodup_cons] at hnodup
    rcases List.mem_cons.mp hf with rfl | hf
    · -- the files after this one have other keys
      rw [get?_of_uploadObjects_other hstore hrest, Dict.get?_set, if_pos rfl]
      intro g hg hkey
      have hgf := str_div_inj (hrelative g (List.mem_cons_of_mem f hg))
        (hrelative f List.mem_cons_self) hkey
      exact hnodup.1 (hgf ▸ List.mem_map_of_mem hg)
    · exact ih (fun k hk => hrelative k (List.mem_cons_of_mem g hk)) hnodup.2 hrest hf

variable {tree : Tree β}

theorem relative_of_mem {q : PurePath} (hq : q ∈ tree.files.keys) : q.root = .relative :=
  (tree.relative q hq).1

/-- Every file is under its key. -/
theorem get?_of_upload (hstore : store.Documented)
    (h : upload store bucket path (.directory tree) = .ok bucket') {q : PurePath}
    (hq : q ∈ tree.files.keys) : bucket'.get? (path / q).str = tree.files.get? q := by
  obtain ⟨f, hf, rfl⟩ := List.mem_map.mp hq
  rw [(Dict.get?_eq_some_iff tree.files f.1 f.2).mpr hf]
  exact get?_of_uploadObjects hstore (fun g hg => relative_of_mem (List.mem_map_of_mem hg))
    tree.files.nodup h hf

/-- No other key has changed. -/
theorem get?_of_upload_other (hstore : store.Documented)
    (h : upload store bucket path (.directory tree) = .ok bucket') {key : String}
    (hkey : ∀ q ∈ tree.files.keys, (path / q).str ≠ key) :
    bucket'.get? key = bucket.get? key :=
  get?_of_uploadObjects_other hstore h fun f hf => hkey f.1 (List.mem_map_of_mem hf)

/-! ## A download as a list of files -/

/-- The files that the keys stand for, one after the other. -/
def writes (bucket : Dict String β) (source destination : PurePath) (keys : List String) :
    List (PurePath × β) :=
  keys.filterMap fun key =>
    (dstFile source destination key).bind fun dst => (bucket.get? key).map fun body => (dst, body)

/-- A key that begins with the path can be cut. -/
theorem exists_dstFile (home : PurePath) {key : String} (hkey : path.str.toList <+: key.toList) :
    ∃ dst, dstFile path home key = some dst := by
  obtain ⟨rest, hrest⟩ := hkey
  have hsep : path.str.toList ≠ [] := by simpa using str_ne_empty path
  obtain ⟨piece, more, hpieces⟩ : ∃ piece more, pieces path.str.toList 0 rest = piece :: more :=
    List.exists_cons_of_ne_nil (pieces_ne_nil _ _ _)
  rw [dstFile, Text.splitAt, ← hrest, pieces_append_self hsep, hpieces]
  exact ⟨_, rfl⟩

/-- The client brings the objects under the keys. -/
def Brings (store : Store ε β) (bucket : Dict String β) (keys : List String) : Prop :=
  ∀ key ∈ keys, ∃ body, store.downloadFile bucket key = .ok body

theorem download_eq_writeAll (hstore : store.Documented) {keys : List String}
    {files : Dict PurePath β} (hkeys : ∀ key ∈ keys, path.str.toList <+: key.toList)
    (hbrings : Brings store bucket keys) :
    keys.foldlM (downloadFile store bucket path home) files =
      (writeAll home (writes bucket path home keys) files).mapError DownloadError.osError := by
  induction keys generalizing files with
  | nil => rfl
  | cons key keys ih =>
    obtain ⟨dst, hdst⟩ := exists_dstFile home (hkeys key List.mem_cons_self)
    obtain ⟨body, hbrought⟩ := hbrings key List.mem_cons_self
    have hbody := hstore.downloads hbrought
    have hwrites : writes bucket path home (key :: keys) =
        (dst, body) :: writes bucket path home keys := by
      rw [writes, List.filterMap_cons, hdst, hbody]
      rfl
    rw [List.foldlM_cons, downloadFile, hdst, hbrought, hwrites, writeAll_cons]
    show (((writeFile home files dst body).mapError DownloadError.osError) >>= _) = _
    rcases writeFile home files dst body with e | next
    · rfl
    · exact ih (fun k hk => hkeys k (List.mem_cons_of_mem key hk))
        fun k hk => hbrings k (List.mem_cons_of_mem key hk)

/-- A download that comes to its end has been brought every object. -/
theorem brings_of_download {keys : List String} {files files' : Dict PurePath β}
    (h : keys.foldlM (downloadFile store bucket path home) files = .ok files') :
    Brings store bucket keys := by
  induction keys generalizing files with
  | nil => exact fun key hkey => by cases hkey
  | cons key keys ih =>
    rw [List.foldlM_cons] at h
    obtain ⟨next, hnext, hrest⟩ := bind_eq_ok.mp h
    refine List.forall_mem_cons.mpr ⟨?_, ih hrest⟩
    rw [downloadFile] at hnext
    split at hnext
    · cases hnext
    · obtain ⟨body, hbrought, -⟩ := bind_eq_ok.mp hnext
      rcases hdownload : store.downloadFile bucket key with e | body'
      · rw [hdownload] at hbrought
        cases hbrought
      · exact ⟨body', rfl⟩

theorem mem_writes {keys : List String} {dst : PurePath} {body : β} :
    (dst, body) ∈ writes bucket path home keys ↔
      ∃ key ∈ keys, dstFile path home key = some dst ∧ bucket.get? key = some body := by
  simp [writes, List.mem_filterMap, Option.bind_eq_some_iff]

/-- The last file with a path is that of the last key for it. -/
theorem lastBody_writes {keys : List String} (hkeys : ∀ key ∈ keys, bucket.get? key ≠ none)
    (p : PurePath) : lastBody p (writes bucket path home keys) =
      (keys.filter fun key => dstFile path home key = some p).getLast?.bind bucket.get? := by
  induction keys using List.reverseRecOn with
  | nil => rfl
  | append_singleton keys key ih =>
    obtain ⟨body, hbody⟩ := Option.ne_none_iff_exists'.mp (hkeys key (by simp))
    have hsingle : lastBody p (writes bucket path home [key]) =
        if dstFile path home key = some p then some body else none := by
      rcases hdst : dstFile path home key with _ | dst <;>
        simp [writes, hdst, hbody, lastBody]
    rw [writes, List.filterMap_append, lastBody_append]
    show (lastBody p (writes bucket path home [key])).or (lastBody p (writes bucket path home keys))
      = _
    rw [hsingle, ih fun k hk => hkeys k (List.mem_append_left _ hk), List.filter_append]
    by_cases hdst : dstFile path home key = some p <;> simp [hdst, hbody]

/-! ## The round trip -/

/-- The files of the tree are below `home`, with their contents, and there are no others. -/
def Restores (tree : Tree β) (home : PurePath)
    (outcome : Except (DownloadError ε) (Dict PurePath β)) : Prop :=
  ∃ files, outcome = .ok files ∧
    ∀ p body, files.get? p = some body ↔ ∃ q, p = home / q ∧ tree.files.get? q = some body

/-- The keys are cut to files of the tree, and the last one for a file has its content. -/
structure Recovered (bucket : Dict String β) (tree : Tree β) (path home : PurePath)
    (keys : List String) : Prop where
  lands : ∀ key ∈ keys, ∃ q ∈ tree.files.keys, dstFile path home key = some (home / q)
  last : ∀ q ∈ tree.files.keys,
    (keys.filter fun key => dstFile path home key = some (home / q)).getLast?.bind bucket.get? =
      tree.files.get? q

theorem above_div_iff {p q : PurePath} (hp : p.root = .relative) (hq : q.root = .relative) :
    Above (home / p) (home / q) ↔ Above p q := by
  rw [Above, Above, (div_of_relative hp).1, (div_of_relative hp).2, (div_of_relative hq).1,
    (div_of_relative hq).2, hp, hq, List.prefix_append_right_inj, ne_eq,
    List.append_cancel_left_eq]
  simp

theorem not_above_home {p : PurePath} (hp : p.root = .relative) (hparts : p.parts ≠ []) :
    home / p ≠ home ∧ ¬Above (home / p) home := by
  have hlength : 0 < p.parts.length := List.length_pos_iff.mpr hparts
  have hlonger : ¬(home / p).parts <+: home.parts := by
    intro h
    have := h.length_le
    rw [(div_of_relative hp).2, List.length_append] at this
    omega
  refine ⟨fun h => hlonger ?_, fun h => hlonger h.2.1⟩
  rw [h]

theorem keys_listed (hstore : store.Documented) (bucket : Dict String β) (path : PurePath) :
    ∀ key ∈ listBucket store bucket path,
      path.str.toList <+: key.toList ∧ bucket.get? key ≠ none := by
  intro key hkey
  obtain ⟨hmem, hstarts⟩ := List.mem_filter.mp (hstore.lists hkey)
  exact ⟨List.isPrefixOf_iff_prefix.mp hstarts, Dict.mem_keys.mp hmem⟩

theorem get?_eq_lastBody {keys : List String} {files : Dict PurePath β}
    (hkeys : ∀ key ∈ keys, bucket.get? key ≠ none)
    (h : writeAll home (writes bucket path home keys) .empty = .ok files) (p : PurePath) :
    files.get? p =
      (keys.filter fun key => dstFile path home key = some p).getLast?.bind bucket.get? := by
  rw [get?_of_writeAll h, show (Dict.empty : Dict PurePath β).get? p = none from rfl,
    Option.or_none, lastBody_writes hkeys]

theorem recovered_of_restores {keys : List String} {files : Dict PurePath β}
    (hkeys : ∀ key ∈ keys, path.str.toList <+: key.toList ∧ bucket.get? key ≠ none)
    (h : writeAll home (writes bucket path home keys) .empty = .ok files)
    (hfiles : ∀ p body, files.get? p = some body ↔
      ∃ q, p = home / q ∧ tree.files.get? q = some body) :
    Recovered bucket tree path home keys := by
  have hget := get?_eq_lastBody (fun key hkey => (hkeys key hkey).2) h
  constructor
  · intro key hkey
    obtain ⟨dst, hdst⟩ := exists_dstFile home (hkeys key hkey).1
    obtain ⟨body, hbody⟩ := Option.ne_none_iff_exists'.mp (hkeys key hkey).2
    -- something was written there, and all that is there is of the tree
    have hwritten : files.get? dst ≠ none := by
      rw [get?_of_writeAll h, ne_eq, Option.or_eq_none_iff]
      exact fun hnone => lastBody_ne_none (mem_writes.mpr ⟨key, hkey, hdst, hbody⟩) hnone.1
    obtain ⟨last, hlast⟩ := Option.ne_none_iff_exists'.mp hwritten
    obtain ⟨q, rfl, hq⟩ := (hfiles dst last).mp hlast
    exact ⟨q, Dict.mem_keys.mpr (by rw [hq]; exact Option.some_ne_none last), hdst⟩
  · intro q hq
    obtain ⟨body, hbody⟩ := Option.ne_none_iff_exists'.mp (Dict.mem_keys.mp hq)
    rw [← hget, hbody]
    exact (hfiles (home / q) body).mpr ⟨q, rfl, hbody⟩

theorem restores_of_recovered {keys : List String}
    (hkeys : ∀ key ∈ keys, path.str.toList <+: key.toList ∧ bucket.get? key ≠ none)
    (h : Recovered bucket tree path home keys) :
    ∃ files, writeAll home (writes bucket path home keys) .empty = .ok files ∧
      ∀ p body, files.get? p = some body ↔
        ∃ q, p = home / q ∧ tree.files.get? q = some body := by
  obtain ⟨files, hfiles⟩ : ∃ files,
      writeAll home (writes bucket path home keys) .empty = .ok files := by
    refine writeAll_ok (S := fun p => ∃ q ∈ tree.files.keys, p = home / q) ?_ ?_ ?_ ?_
    · intro p ⟨q, hq, hp⟩
      rw [hp]
      exact not_above_home (relative_of_mem hq) (tree.relative q hq).2.1
    · intro p p' ⟨q, hq, hp⟩ ⟨q', hq', hp'⟩ habove
      rw [hp, hp', above_div_iff (relative_of_mem hq) (relative_of_mem hq')] at habove
      exact tree.apart q hq q' hq' habove
    · intro w hw
      obtain ⟨key, hkey, hdst, -⟩ := mem_writes.mp hw
      obtain ⟨q, hq, hlands⟩ := h.lands key hkey
      exact ⟨q, hq, Option.some.inj (hdst.symm.trans hlands)⟩
    · intro p hp
      cases hp
  have hget := get?_eq_lastBody (fun key hkey => (hkeys key hkey).2) hfiles
  refine ⟨files, hfiles, fun p body => ?_⟩
  constructor
  · intro hp
    obtain ⟨key, hkey, hdst, -⟩ : ∃ key ∈ keys, dstFile path home key = some p ∧
        bucket.get? key = some body := by
      rw [get?_of_writeAll hfiles, Option.or_eq_some_iff] at hp
      rcases hp with hp | ⟨-, hp⟩
      · exact mem_writes.mp (mem_of_lastBody hp)
      · cases hp
    obtain ⟨q, hq, hlands⟩ := h.lands key hkey
    obtain rfl : p = home / q := Option.some.inj (hdst.symm.trans hlands)
    exact ⟨q, rfl, by rw [← h.last q hq, ← hget, hp]⟩
  · rintro ⟨q, rfl, hq⟩
    have hmem : q ∈ tree.files.keys :=
      Dict.mem_keys.mpr (by rw [hq]; exact Option.some_ne_none body)
    rw [hget, h.last q hmem, hq]

/-- A download has the files of a tree if and only if its objects are brought and its keys are cut
to them. -/
theorem restores_iff_recovered (hstore : store.Documented) :
    Restores tree home (download store bucket path home) ↔
      Brings store bucket (listBucket store bucket path) ∧
      Recovered bucket tree path home (listBucket store bucket path) := by
  have hkeys := keys_listed hstore bucket path
  have hstarts := fun key hkey => (hkeys key hkey).1
  rw [Restores, download]
  constructor
  · rintro ⟨files, hok, hfiles⟩
    have hbrings := brings_of_download hok
    rw [download_eq_writeAll hstore hstarts hbrings] at hok
    refine ⟨hbrings, ?_⟩
    rcases hwrites : writeAll home (writes bucket path home (listBucket store bucket path)) .empty
      with e | written
    · rw [hwrites] at hok
      cases hok
    · rw [hwrites] at hok
      obtain rfl : written = files := Except.ok.inj hok
      exact recovered_of_restores hkeys hwrites hfiles
  · rintro ⟨hbrings, h⟩
    obtain ⟨files, hwrites, hfiles⟩ := restores_of_recovered hkeys h
    exact ⟨files, by rw [download_eq_writeAll hstore hstarts hbrings, hwrites]; rfl, hfiles⟩

/-! ## With no other key behind the path -/

/-- No object that was there begins with the path, but for those that are uploaded. -/
def Alone (bucket : Dict String β) (tree : Tree β) (path : PurePath) : Prop :=
  ∀ key ∈ keysWithPrefix bucket path.str, ∃ q ∈ tree.files.keys, (path / q).str = key

/-- The path and the slash are followed by this in the key of a file. -/
def behind (q : PurePath) : List Char := '/' :: (join '/' q.parts).toList

theorem dstFile_own (home : PurePath) {q : PurePath} (hpath : path.parts ≠ [])
    (hq : q ∈ tree.files.keys) {x : List Char} {more : List (List Char)}
    (hx : pieces path.str.toList 0 (behind q) = x :: more) :
    dstFile path home (path / q).str = some (home / String.ofList (x.drop 1)) := by
  obtain ⟨hroot, hparts, -⟩ := tree.relative q hq
  have hsep : path.str.toList ≠ [] := by simpa using str_ne_empty path
  have hkey : (path / q).str.toList = path.str.toList ++ behind q := by
    rw [str_div hpath hroot hparts, String.append_assoc, String.toList_append,
      String.toList_append]
    rfl
  rw [dstFile, Text.splitAt, hkey, pieces_append_self hsep, hx]
  simp

/-- A file whose key has the text of the path but once comes back to its place. -/
theorem dstFile_of_once (home : PurePath) {q : PurePath} (hpath : path.parts ≠ [])
    (hq : q ∈ tree.files.keys) (h : ¬path.str.toList <:+: behind q) :
    dstFile path home (path / q).str = some (home / q) := by
  rw [dstFile_own home hpath hq (pieces_eq_singleton h), behind, List.drop_one, List.tail_cons,
    String.ofList_toList]
  have hparse : PurePath.parse (join '/' q.parts) = q := by
    rw [parse_join q.isPart]
    exact PurePath.ext_iff'.mpr ⟨(relative_of_mem hq).symm, rfl⟩
  rw [div_parse, hparse]

/-- No key of another file is cut to a file whose own key has the text of the path twice. -/
theorem not_infix_of_dstFile {q r : PurePath} (hpath : path.parts ≠ [])
    (hq : q ∈ tree.files.keys) (hr : r ∈ tree.files.keys)
    (h : dstFile path home (path / r).str = some (home / q)) :
    ¬path.str.toList <:+: behind q := by
  have hsep : path.str.toList ≠ [] := by simpa using str_ne_empty path
  obtain ⟨x, more, hx⟩ := List.exists_cons_of_ne_nil (pieces_ne_nil path.str.toList 0 (behind r))
  obtain ⟨hfront, hfree⟩ := not_infix_of_pieces hsep hx
  rw [dstFile_own home hpath hr hx, Option.some.injEq, div_parse] at h
  obtain ⟨hroot, hparts, -⟩ := tree.relative q hq
  rcases List.prefix_cons_iff.mp hfront with rfl | ⟨y, rfl, hy⟩
  · have hparse := div_inj rfl hroot h
    exact absurd (hparse ▸ rfl) hparts
  · rw [List.drop_one, List.tail_cons] at h
    have hrelative : (PurePath.parse (String.ofList y)).root = .relative := by
      refine (rootOf_of_head fun c hc => ?_).1
      rw [String.toList_ofList] at hc
      rcases y with _ | ⟨d, y⟩
      · cases hc
      · obtain ⟨more, hmore⟩ := hy
        exact head?_join r.isPart c (hmore ▸ hc)
    have hparse := div_inj hrelative hroot h
    have hjoin := join_parse_prefix r.isPart (y := String.ofList y)
      (by rwa [String.toList_ofList])
    rw [hparse, String.toList_ofList] at hjoin
    exact fun hin => hfree (hin.trans ((List.prefix_cons_inj '/').mpr hjoin).isInfix)

theorem keysWithPrefix_upload (hstore : store.Documented)
    (h : upload store bucket path (.directory tree) = .ok bucket') (hpath : path.parts ≠ [])
    (halone : Alone bucket tree path) (key : String) :
    key ∈ keysWithPrefix bucket' path.str ↔ ∃ q ∈ tree.files.keys, (path / q).str = key := by
  rw [keysWithPrefix, List.mem_filter, Dict.mem_keys, List.isPrefixOf_iff_prefix]
  constructor
  · intro ⟨hkey, hstarts⟩
    by_contra hother
    have hother' : ∀ q ∈ tree.files.keys, (path / q).str ≠ key := fun q hq heq =>
      hother ⟨q, hq, heq⟩
    rw [get?_of_upload_other hstore h hother'] at hkey
    exact hother (halone key (List.mem_filter.mpr
      ⟨Dict.mem_keys.mpr hkey, List.isPrefixOf_iff_prefix.mpr hstarts⟩))
  · intro ⟨q, hq, hkey⟩
    obtain ⟨hroot, hparts, -⟩ := tree.relative q hq
    rw [← hkey, get?_of_upload hstore h hq, str_div hpath hroot hparts, String.append_assoc,
      String.toList_append]
    exact ⟨Dict.mem_keys.mp hq, List.prefix_append _ _⟩

theorem nodup_keysWithPrefix (bucket : Dict String β) (text : String) :
    (keysWithPrefix bucket text).Nodup := bucket.nodup.filter _

/-- All keys of the tree are listed if they fit on the page. -/
theorem mem_listBucket (hstore : store.Documented)
    (h : upload store bucket path (.directory tree) = .ok bucket') (hpath : path.parts ≠ [])
    (halone : Alone bucket tree path) (hpage : tree.files.items.length ≤ 1000) (key : String) :
    key ∈ listBucket store bucket' path ↔ ∃ q ∈ tree.files.keys, (path / q).str = key := by
  have hkeys := keysWithPrefix_upload hstore h hpath halone
  have hsub : listBucket store bucket' path ⊆ keysWithPrefix bucket' path.str :=
    fun key hkey => hstore.lists hkey
  have hlength : (keysWithPrefix bucket' path.str).length ≤ 1000 := by
    have hmap : keysWithPrefix bucket' path.str ⊆
        tree.files.keys.map fun q => (path / q).str := by
      intro key hkey
      obtain ⟨q, hq, rfl⟩ := (hkeys key).mp hkey
      exact List.mem_map_of_mem hq
    have hle := (List.subperm_of_subset (nodup_keysWithPrefix bucket' path.str) hmap).length_le
    rw [List.length_map, Dict.keys, List.length_map] at hle
    omega
  have hperm : (listBucket store bucket' path).Perm (keysWithPrefix bucket' path.str) := by
    refine (List.subperm_of_subset (hstore.nodup _ _) hsub).perm_of_length_le ?_
    rw [hstore.page]
    omega
  rw [hperm.mem_iff, hkeys]

theorem recovered_of_alone (hstore : store.Documented)
    (h : upload store bucket path (.directory tree) = .ok bucket') (hpath : path.parts ≠ [])
    (halone : Alone bucket tree path) (hpage : tree.files.items.length ≤ 1000)
    (honce : ∀ q ∈ tree.files.keys, ¬path.str.toList <:+: behind q) :
    Recovered bucket' tree path home (listBucket store bucket' path) := by
  have hlisted := mem_listBucket hstore h hpath halone hpage
  constructor
  · intro key hkey
    obtain ⟨q, hq, rfl⟩ := (hlisted key).mp hkey
    exact ⟨q, hq, dstFile_of_once home hpath hq (honce q hq)⟩
  · intro q hq
    -- its own key is the only one that is cut to the file
    have hmem : (path / q).str ∈ (listBucket store bucket' path).filter fun key =>
        dstFile path home key = some (home / q) := by
      rw [List.mem_filter]
      exact ⟨(hlisted _).mpr ⟨q, hq, rfl⟩,
        decide_eq_true (dstFile_of_once home hpath hq (honce q hq))⟩
    obtain ⟨key, hkey⟩ := Option.ne_none_iff_exists'.mp
      (mt List.getLast?_eq_none_iff.mp (List.ne_nil_of_mem hmem))
    obtain ⟨hkeyListed, hdst⟩ := List.mem_filter.mp (List.mem_of_getLast? hkey)
    obtain ⟨r, hr, rfl⟩ := (hlisted key).mp hkeyListed
    have hdst' := of_decide_eq_true hdst
    rw [dstFile_of_once home hpath hr (honce r hr), Option.some.injEq] at hdst'
    obtain rfl := div_inj (relative_of_mem hr) (relative_of_mem hq) hdst'
    rw [hkey]
    exact get?_of_upload hstore h hr

theorem exists_key_of_recovered {keys : List String} (h : Recovered bucket tree path home keys)
    {q : PurePath} (hq : q ∈ tree.files.keys) :
    ∃ key ∈ keys, dstFile path home key = some (home / q) := by
  have hlast := h.last q hq
  rcases hfound : (keys.filter fun key => dstFile path home key = some (home / q)).getLast?
    with _ | key
  · rw [hfound] at hlast
    exact absurd hlast.symm (Dict.mem_keys.mp hq)
  · obtain ⟨hkey, hdst⟩ := List.mem_filter.mp (List.mem_of_getLast? hfound)
    exact ⟨key, hkey, of_decide_eq_true hdst⟩

/-- A page has no room for more files than keys. -/
theorem length_le_of_recovered {keys : List String} (h : Recovered bucket tree path home keys) :
    tree.files.items.length ≤ keys.length := by
  have hsub : (tree.files.keys.map fun q => some (home / q)) ⊆ keys.map (dstFile path home) := by
    intro dst hdst
    obtain ⟨q, hq, rfl⟩ := List.mem_map.mp hdst
    obtain ⟨key, hkey, hcut⟩ := exists_key_of_recovered h hq
    exact hcut ▸ List.mem_map_of_mem hkey
  have hnodup : (tree.files.keys.map fun q => some (home / q)).Nodup := by
    refine List.Nodup.map_on ?_ tree.files.nodup
    intro p hp q hq heq
    exact div_inj (relative_of_mem hp) (relative_of_mem hq) (Option.some.inj heq)
  have := (List.subperm_of_subset hnodup hsub).length_le
  rwa [List.length_map, List.length_map, Dict.keys, List.length_map] at this

theorem recovered_iff_of_alone (hstore : store.Documented)
    (h : upload store bucket path (.directory tree) = .ok bucket') (hpath : path.parts ≠ [])
    (halone : Alone bucket tree path) :
    Recovered bucket' tree path home (listBucket store bucket' path) ↔
      tree.files.items.length ≤ 1000 ∧
      ∀ q ∈ tree.files.keys, ¬path.str.toList <:+: behind q := by
  constructor
  · intro hrecovered
    constructor
    · have hpage := length_le_of_recovered hrecovered
      rw [listBucket, hstore.page] at hpage
      omega
    · intro q hq
      obtain ⟨key, hkey, hcut⟩ := exists_key_of_recovered hrecovered hq
      obtain ⟨r, hr, rfl⟩ :=
        (keysWithPrefix_upload hstore h hpath halone key).mp (hstore.lists hkey)
      exact not_infix_of_dstFile hpath hq hr hcut
  · intro ⟨hpage, honce⟩
    exact recovered_of_alone hstore h hpath halone hpage honce

/-- What is uploaded to a path is downloaded from it if and only if the client brings the objects
listed for it and their keys are cut to the files; with no other key behind the path, if these are
a thousand at most and the text of the path occurs but once in their keys. -/
theorem download_upload_iff (hstore : store.Documented)
    (h : upload store bucket path (.directory tree) = .ok bucket') :
    (Restores tree home (download store bucket' path home) ↔
      Brings store bucket' (listBucket store bucket' path) ∧
      Recovered bucket' tree path home (listBucket store bucket' path)) ∧
    (Alone bucket tree path → path.parts ≠ [] →
      (Restores tree home (download store bucket' path home) ↔
        Brings store bucket' (listBucket store bucket' path) ∧
        tree.files.items.length ≤ 1000 ∧
        ∀ q ∈ tree.files.keys, ¬path.str.toList <:+: behind q)) := by
  refine ⟨restores_iff_recovered hstore, fun halone hpath => ?_⟩
  rw [restores_iff_recovered hstore, recovered_iff_of_alone hstore h hpath halone]

/-- A client that lists the keys of a page in the order of the bucket, and brings what is there. -/
def pages : Store Unit String where
  guessType _ := some "text/html"
  uploadFile bucket key body _ := .ok (bucket.set key body)
  downloadFile bucket key := match bucket.get? key with
    | some body => .ok body
    | none => .error ()
  listObjects bucket text := (keysWithPrefix bucket text).take 1000

theorem pages_downloadFile {bucket : Dict String String} {key body : String} :
    pages.downloadFile bucket key = .ok body ↔ bucket.get? key = some body := by
  show (match bucket.get? key with
    | some body => Except.ok body
    | none => .error ()) = .ok body ↔ _
  rcases bucket.get? key with _ | body' <;> simp

theorem pages_documented : pages.Documented where
  uploads h := (Except.ok.inj h).symm
  downloads := pages_downloadFile.mp
  lists h := List.mem_of_mem_take h
  nodup bucket text := (nodup_keysWithPrefix bucket text).sublist (List.take_sublist _ _)
  page _ _ := List.length_take

theorem pages_brings (bucket : Dict String String) (path : PurePath) :
    Brings pages bucket (listBucket pages bucket path) := by
  intro key hkey
  obtain ⟨body, hbody⟩ :=
    Option.ne_none_iff_exists'.mp (keys_listed pages_documented bucket path key hkey).2
  exact ⟨body, pages_downloadFile.mpr hbody⟩

def report : Tree String where
  files := ⟨[(.parse "data/a.html", "1"), (.parse "index.html", "2")], by decide⟩
  relative := by decide
  apart := by decide

/-- A bucket with one report, that of a build. -/
def reportBucket (build : String) : Dict String String :=
  ⟨[("oz/" ++ build ++ "/index.html", "3")], List.nodup_singleton _⟩

/-- The bucket with `report` uploaded as that of build 12. -/
def uploaded (bucket : Dict String String) : Dict String String :=
  (bucket.set "oz/12/data/a.html" "1").set "oz/12/index.html" "2"

theorem upload_report (bucket : Dict String String) :
    upload pages bucket (.parse "oz/12") (.directory report) = .ok (uploaded bucket) := rfl

theorem download_upload_iff_report :
    Restores report (.parse "out")
      (download pages (uploaded (reportBucket "11")) (.parse "oz/12") (.parse "out")) := by
  have halone : Alone (reportBucket "11") report (.parse "oz/12") := by
    unfold Alone
    decide
  exact ((download_upload_iff pages_documented (upload_report _)).2 halone (by decide)).mpr
    ⟨pages_brings _ _, by decide, by decide⟩

/-- The report of build 123 is behind the path of build 12, and is downloaded with it. -/
theorem download_upload_sibling :
    upload pages (reportBucket "123") (.parse "oz/12") (.directory report) =
      .ok (uploaded (reportBucket "123")) ∧
    ¬Restores report (.parse "out")
      (download pages (uploaded (reportBucket "123")) (.parse "oz/12") (.parse "out")) := by
  refine ⟨upload_report _, ?_⟩
  rw [restores_iff_recovered pages_documented]
  rintro ⟨-, h⟩
  obtain ⟨q, hq, hcut⟩ := h.lands "oz/123/index.html" (by decide)
  have hcut' : dstFile (.parse "oz/12") (.parse "out") "oz/123/index.html" =
      some (.parse "/index.html") := by decide
  have hoff : ∀ q ∈ report.files.keys, PurePath.parse "/index.html" ≠ .parse "out" / q := by decide
  exact hoff q hq (Option.some.inj (hcut'.symm.trans hcut))

end NeonTests.Cloud
