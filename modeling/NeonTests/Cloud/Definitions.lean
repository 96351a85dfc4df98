import NeonTests.Lib.Pathlib

/-!
# Cloud — the files of a report in a bucket

`utils/cloud.py`: `upload` writes every file below a directory under its own key, `download` asks
for the keys that begin with the text of a path and cuts this text out of them again.

The bucket is a dictionary from keys to contents. Of the S3 client is assumed what its reference
says (`Store.Documented`): an upload that returns has set the key, a download that returns has the
content of the key, and a call of `list_objects_v2` lists the keys with the prefix, at most a
thousand.
-/

namespace NeonTests.Cloud

open Text Pathlib Fallible

/-! ## Files and objects -/

variable {ε β : Type}

/-- The files below a directory, by their paths relative to it. -/
structure Tree (β : Type) where
  files : Dict PurePath β
  relative : ∀ p ∈ files.keys, p.root = .relative ∧ p.parts ≠ [] ∧ ".." ∉ p.parts
  apart : ∀ p ∈ files.keys, ∀ q ∈ files.keys, ¬Above p q

/-- What a path that is uploaded can be. -/
inductive Source (β : Type)
  | file (name : String) (body : β)
  | directory (tree : Tree β)

/-- `p.name` -/
def name (p : PurePath) : String := p.parts.getLast?.getD ""

/-- `boto3.client("s3")` and `mimetypes` -/
structure Store (ε β : Type) where
  /-- `mimetypes.guess_type(name)[0]` -/
  guessType : String → Option String
  /-- `client.upload_file`: the bucket, the key, the content and its type -/
  uploadFile : Dict String β → String → β → Option String → Except ε (Dict String β)
  /-- the content that `client.download_file` brings -/
  downloadFile : Dict String β → String → Except ε β
  /-- the keys of `client.list_objects_v2(Bucket=bucket, Prefix=prefix)["Contents"]` -/
  listObjects : Dict String β → String → List String

/-- The keys of a bucket that begin with the text. -/
def keysWithPrefix (bucket : Dict String β) (text : String) : List String :=
  bucket.keys.filter fun key => text.toList.isPrefixOf key.toList

structure Store.Documented (store : Store ε β) : Prop where
  uploads : ∀ {bucket key body type bucket'},
    store.uploadFile bucket key body type = .ok bucket' → bucket' = bucket.set key body
  downloads : ∀ {bucket key body},
    store.downloadFile bucket key = .ok body → bucket.get? key = some body
  lists : ∀ {bucket text key},
    key ∈ store.listObjects bucket text → key ∈ keysWithPrefix bucket text
  nodup : ∀ bucket text, (store.listObjects bucket text).Nodup
  page : ∀ bucket text,
    (store.listObjects bucket text).length = min 1000 (keysWithPrefix bucket text).length

/-! ## upload and download -/

def uploadObject (store : Store ε β) (destination : PurePath) (bucket : Dict String β)
    (f : PurePath × β) : Except ε (Dict String β) :=
  store.uploadFile bucket (destination / f.1).str f.2 (store.guessType (name f.1))

def upload (store : Store ε β) (bucket : Dict String β) (destination : PurePath) :
    Source β → Except ε (Dict String β)
  | .file name body =>
    store.uploadFile bucket (destination / name).str body (store.guessType name)
  | .directory tree => tree.files.items.foldlM (uploadObject store destination) bucket

def listBucket (store : Store ε β) (bucket : Dict String β) (directory : PurePath) : List String :=
  store.listObjects bucket directory.str

inductive DownloadError (ε : Type)
  | indexError
  | clientError (e : ε)
  | osError (e : OSError)
  deriving DecidableEq, Repr

/-- `pathlib.Path(destination) / key.split(str(source))[1][1:]` -/
def dstFile (source destination : PurePath) (key : String) : Option PurePath :=
  (splitAt key source.str)[1]?.map fun rest => destination / String.ofList (rest.toList.drop 1)

def downloadFile (store : Store ε β) (bucket : Dict String β) (source destination : PurePath)
    (files : Dict PurePath β) (key : String) : Except (DownloadError ε) (Dict PurePath β) :=
  match dstFile source destination key with
  | none => .error .indexError
  | some dst => do
    let body ← (store.downloadFile bucket key).mapError .clientError
    (writeFile destination files dst body).mapError .osError

/-- `download` into an empty directory: the files that are there then. -/
def download (store : Store ε β) (bucket : Dict String β) (source destination : PurePath) :
    Except (DownloadError ε) (Dict PurePath β) :=
  (listBucket store bucket source).foldlM (downloadFile store bucket source destination) .empty

end NeonTests.Cloud
