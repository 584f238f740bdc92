import PathwayRuntime.Model.LocalFile
import PathwayRuntime.Resume.Durable

/-!
# Backups of the databases

* `FileSystem`: what stands at each path, and the log beside it; `FileSystem.data`: the bytes of a file.
* `SqliteLibrary.database`: what a file and its log hold; `FileSystem.settle`: what SQLite makes of the two.
* `FileOp`, `fileSystem`: the operations on files, any of which may fail.
* `BackupManifest`, `BackupManifest.text`: what a backup returns, and what it writes.
* `backupSqliteSet`, `restoreSqliteBackup`.
* `BackupCall`: calls of the two, made one after another.
-/

set_option autoImplicit false

namespace Rpr

open Resume

/-! ## Files -/

inductive FileEntry : Type
  | file (data : Bytes)
  | directory
  deriving DecidableEq

/-- What stands at each path, and what SQLite has left beside it: the bytes of the write-ahead log or the rollback
journal, none where that file is empty or missing. Logs are not reached by paths of their own. -/
structure FileSystem where
  entry : PyPath → Option FileEntry
  log : PyPath → Bytes

/-- `OSError`, and `sqlite3.OperationalError`. -/
def osError (name : String) (text : PyText) : PyException := .ofClass name ["OSError"] text

def unableToOpen : PyException :=
  .ofClass "OperationalError" ["DatabaseError", "Error"] "unable to open database file"

namespace FileSystem

variable (fs : FileSystem) (p q : PyPath)

/-- The bytes of a file. -/
def data : Option Bytes :=
  match fs.entry p with
  | some (.file data) => some data
  | _ => none

def read : Except PyException Bytes :=
  match fs.entry p with
  | some (.file data) => .ok data
  | some .directory => .error (osError "IsADirectoryError" "[Errno 21] Is a directory")
  | none => .error (osError "FileNotFoundError" "[Errno 2] No such file or directory")

/-- The file alone: what is beside it stays. -/
def write (data : Bytes) : FileSystem := { fs with entry := Function.update fs.entry p (some (.file data)) }

/-- The file and its log. -/
def put (data log : Bytes) : FileSystem := { fs.write p data with log := Function.update fs.log p log }

def remove : FileSystem := { fs with entry := Function.update fs.entry p none }

/-- A directory at the path, and at every path above it where nothing stands. -/
def withDirectories : FileSystem :=
  { fs with entry := fun r => if r <+: p ∧ fs.entry r = none then some .directory else fs.entry r }

/-- `mkdir(parents=True, exist_ok=True)`. -/
def mkdir : Except PyException FileSystem :=
  if (fs.data p).isSome then .error (osError "FileExistsError" "[Errno 17] File exists")
  else if p.inits.any fun r => (fs.data r).isSome then
    .error (osError "NotADirectoryError" "[Errno 20] Not a directory")
  else .ok (fs.withDirectories p)

/-- What opening a file for writing makes of it, where it does not stand yet. -/
def create (fails : PyException) : Except PyException FileSystem :=
  match fs.entry p with
  | some (.file _) => .ok fs
  | some .directory => .error fails
  | none => if fs.entry p.dropLast = some .directory then .ok (fs.write p []) else .error fails

/-- `open("w")`. -/
def truncate : Except PyException FileSystem :=
  (fs.create p (osError "OSError" "the file cannot be opened")).map fun fs' => fs'.write p []

/-- `unlink(missing_ok=True)`. -/
def unlink : Except PyException FileSystem :=
  match fs.entry p with
  | some .directory => .error (osError "IsADirectoryError" "[Errno 21] Is a directory")
  | _ => .ok (fs.remove p)

/-- `p.replace(q)`: the log beside `q` stays there. -/
def replace : Except PyException FileSystem :=
  match fs.entry p, fs.entry q with
  | some (.file data), some (.file _) | some (.file data), none => .ok ((fs.remove p).write q data)
  | none, _ => .error (osError "FileNotFoundError" "[Errno 2] No such file or directory")
  | _, _ => .error (osError "OSError" "a directory stands at one of the paths")

end FileSystem

/-! ## Operations -/

/-- `resolve()` of a path, the SHA-256 hex digest of bytes, and what SQLite does: the database that is in a file once
its log is applied to it, and of a database the first row of `PRAGMA integrity_check`, and the file that
`Connection.backup` writes. -/
structure SqliteLibrary where
  resolve : PyText → Except PyException PyPath
  digest : Bytes → String
  recover : Bytes → Bytes → Bytes
  integrityCheck : Bytes → Except PyException PyText
  copyOf : Bytes → Except PyException Bytes

/-- The database that a file and its log hold. -/
def SqliteLibrary.database (lib : SqliteLibrary) (data log : Bytes) : Bytes :=
  if log = [] then data else lib.recover data log

/-- `copyBegin` and `copyEnd` are one `Connection.backup`: it may be cut short between them. -/
inductive FileOp : Type
  | isFile (p : PyPath)
  | exists (p : PyPath)
  | mkdir (p : PyPath)
  | digest (p : PyPath)
  | connect (p : PyPath)
  | integrityCheck (p : PyPath)
  | copyBegin (source target : PyPath)
  | copyEnd (source target : PyPath)
  | unlink (p : PyPath)
  | replace (p q : PyPath)
  | truncate (p : PyPath)
  | write (p : PyPath) (data : Bytes)
  | now

def FileOp.Value : FileOp → Type
  | .isFile _ | .exists _ => Bool
  | .digest _ | .now => String
  | .integrityCheck _ => PyText
  | _ => Unit

/-- How the operating system and SQLite answer: by an error, what a write leaves that is cut short, in the file and in
its log, what a checkpoint or a rollback leaves there, how many directories are made, and the clock. -/
structure FileAnswer where
  fault : Option PyException
  data : Bytes
  log : Bytes
  settledData : Bytes
  settledLog : Bytes
  made : ℕ
  clock : String

namespace FileAnswer

variable {α : Type} (o : FileAnswer)

/-- The result, or the error. -/
def guard (x : Except PyException α) : Except PyException α :=
  match o.fault with
  | some e => .error e
  | none => x

/-- A change of the file system that happens or does not. -/
def commit (fs : FileSystem) (x : Except PyException FileSystem) : Except PyException Unit × FileSystem :=
  match o.guard x with
  | .ok fs' => (.ok (), fs')
  | .error e => (.error e, fs)

end FileAnswer

section Programs

variable (lib : SqliteLibrary)

/-- What the file and its log hold. -/
def FileSystem.holds (fs : FileSystem) (p : PyPath) : Option Bytes :=
  (fs.data p).map fun data => lib.database data (fs.log p)

/-- The database at the path, as a connection reads it. -/
def FileSystem.readDatabase (fs : FileSystem) (p : PyPath) : Except PyException Bytes :=
  (fs.read p).map fun data => lib.database data (fs.log p)

/-- A connection to a database with a log may move what is in the log into the file, or back out of it: what the two
hold together stays. -/
def FileSystem.settle (fs : FileSystem) (p : PyPath) (o : FileAnswer) : FileSystem :=
  if fs.log p ≠ [] ∧ fs.holds lib p = some (lib.database o.settledData o.settledLog) then
    fs.put p o.settledData o.settledLog
  else fs

def FileOp.exec : (op : FileOp) → FileAnswer → FileSystem → Except PyException op.Value × FileSystem
  | .isFile p, o, fs => (o.guard (.ok (fs.data p).isSome), fs)
  | .exists p, o, fs => (o.guard (.ok (fs.entry p).isSome), fs)
  | .mkdir p, o, fs =>
    if o.fault.isSome then (o.guard (.ok ()), fs.withDirectories (p.take o.made)) else o.commit fs (fs.mkdir p)
  | .digest p, o, fs => (o.guard ((fs.read p).map lib.digest), fs)
  | .connect p, o, fs => o.commit (fs.settle lib p o) ((fs.settle lib p o).create p unableToOpen)
  | .integrityCheck p, o, fs => (o.guard (fs.readDatabase lib p >>= lib.integrityCheck), fs.settle lib p o)
  | .copyBegin source target, o, fs => (o.guard (.ok ()), (fs.settle lib source o).put target o.data o.log)
  | .copyEnd source target, o, fs =>
    o.commit (fs.settle lib source o) ((fs.readDatabase lib source >>= lib.copyOf).map fun copy =>
      (fs.settle lib source o).put target copy [])
  | .unlink p, o, fs => o.commit fs (fs.unlink p)
  | .replace p q, o, fs => o.commit fs (fs.replace p q)
  | .truncate p, o, fs => o.commit fs (fs.truncate p)
  | .write p data, o, fs => (o.guard (.ok ()), fs.write p (if o.fault.isSome then o.data else data))
  | .now, o, fs => (o.guard (.ok o.clock), fs)

/-- The file system. -/
def fileSystem : Machine FileOp (fun op => Except PyException op.Value) FileSystem FileAnswer FileOp where
  exec op o fs := op.exec lib o fs
  label op _ := op

/-- A program over files. -/
abbrev Files (α : Type) : Type := Prog FileOp (fun op => Except PyException op.Value) PyException α

/-- One operation. -/
abbrev file (op : FileOp) : Files op.Value := Prog.issue (T := FileOp.Value) op

abbrev isFile (p : PyPath) : Files Bool := file (.isFile p)

abbrev pathExists (p : PyPath) : Files Bool := file (.exists p)

abbrev fileDigest (p : PyPath) : Files String := file (.digest p)

/-! ## Manifests -/

structure BackupArtifact where
  name : PyText
  source : PyText
  backup : PyText
  sha256 : String
  integrityCheck : PyText

structure BackupManifest where
  formatVersion : ℤ
  createdAt : String
  artifacts : List BackupArtifact

def BackupArtifact.asdict (a : BackupArtifact) : Json :=
  .obj [("name", .str a.name), ("source", .str a.source), ("backup", .str a.backup), ("sha256", .text a.sha256),
    ("integrity_check", .str a.integrityCheck)]

def BackupManifest.toDict (m : BackupManifest) : Json :=
  .obj [("format_version", .int m.formatVersion), ("created_at", .text m.createdAt),
    ("artifacts", .arr (m.artifacts.map BackupArtifact.asdict))]

/-- One code point of a JSON string with `ensure_ascii=True`. -/
def asciiEscape (c : ℕ) : List Char :=
  if 32 ≤ c ∧ c < 127 ∨ c = 9 ∨ c = 10 ∨ c = 13 ∨ c = 8 ∨ c = 12 then Json.escape (Char.ofNat c)
  else if c < 0x10000 then '\\' :: 'u' :: hexDigits 4 c
  else '\\' :: 'u' :: hexDigits 4 (0xD800 + (c - 0x10000) / 1024) ++
    '\\' :: 'u' :: hexDigits 4 (0xDC00 + (c - 0x10000) % 1024)

def asciiQuote (s : PyText) : List Char := '"' :: s.codes.flatMap asciiEscape ++ ['"']

/-- A new line, two blanks a level. -/
def newline (level : ℕ) : List Char := '\n' :: List.replicate (2 * level) ' '

/-- The members of an array or an object, a line each. -/
def indentedBlock (opening closing : Char) (level : ℕ) (members : List (List Char)) : List Char :=
  if members.isEmpty then [opening, closing]
  else opening :: Json.commas (members.map (newline (level + 1) ++ ·)) ++ newline level ++ [closing]

mutual
/-- `json.dumps(value, indent=2, sort_keys=True)`, of values with small integers. -/
def indented (level : ℕ) : Json → List Char
  | .null => "null".toList
  | .bool b => if b then "true".toList else "false".toList
  | .int i => (toString i).toList
  | .float x => x.repr
  | .str s => asciiQuote s
  | .arr items => indentedBlock '[' ']' level (indentedItems (level + 1) items)
  | .obj fields => indentedBlock '\x7b' '\x7d' level
      (((indentedFields (level + 1) fields).insertionSort fun a b => a.1.le b.1 = true).map fun m =>
        asciiQuote m.1 ++ ':' :: ' ' :: m.2)

def indentedItems (level : ℕ) : List Json → List (List Char)
  | [] => []
  | j :: items => indented level j :: indentedItems level items

def indentedFields (level : ℕ) : List (PyText × Json) → List (PyText × List Char)
  | [] => []
  | (key, j) :: fields => (key, indented level j) :: indentedFields level fields
end

/-- The bytes of the manifest file. -/
def BackupManifest.text (m : BackupManifest) : Bytes := encodeUtf8 (indented 0 m.toDict ++ ['\n'])

/-! ## Backup and restore -/

def backupError (text : PyText) : PyException := .ofClass "BackupError" ["RuntimeError"] text

/-- `str(path)`. -/
def PyPath.str : PyPath → PyText
  | [] => "/"
  | parts => parts.foldl (fun path part => path ++ PyText.utf8 "/" ++ part) ""

/-- `target / f"\x7bname\x7d.sqlite3"`. -/
def backupPath (target : PyPath) (name : PyText) : PyPath := target ++ [name ++ PyText.utf8 ".sqlite3"]

def manifestPath (target : PyPath) : PyPath := target ++ [PyText.utf8 "backup-manifest.json"]

/-- `_integrity`. -/
def integrity (p : PyPath) : Files PyText := do
  file (.connect p)
  file (.integrityCheck p)

/-- Two connections and `Connection.backup`. -/
def copyDatabase (source target : PyPath) : Files Unit := do
  file (.connect source)
  file (.connect target)
  file (.copyBegin source target)
  file (.copyEnd source target)

/-- The backup of one database. -/
def backupDatabase (target : PyPath) (cleanName sourceValue : PyText) : Files BackupArtifact := do
  let source ← Prog.ofExcept (lib.resolve sourceValue)
  if (← isFile source) = false then
    .raise (backupError (PyText.utf8 "database does not exist: " ++ source.str))
  else if (← pathExists (backupPath target cleanName)) = true then
    .raise (backupError (PyText.utf8 "backup target already exists: " ++ (backupPath target cleanName).str))
  else do
    copyDatabase source (backupPath target cleanName)
    let check ← integrity (backupPath target cleanName)
    if check ≠ PyText.utf8 "ok" then do
      file (.unlink (backupPath target cleanName))
      .raise (backupError (PyText.utf8 "backup integrity check failed for " ++ cleanName ++ PyText.utf8 ": " ++ check))
    else do
      let sha256 ← fileDigest (backupPath target cleanName)
      return ⟨cleanName, source.str, (backupPath target cleanName).str, sha256, check⟩

/-- The loop over the databases; `names` are those that were seen. -/
def backupDatabases (target : PyPath) : List (PyText × PyText) → List PyText → Files (List BackupArtifact)
  | [], _ => return []
  | (name, sourceValue) :: databases, names =>
    if name.strip.length = 0 ∨ name.strip ∈ names ∨ '/'.toNat ∈ name.strip.codes ∨ '\\'.toNat ∈ name.strip.codes then
      .raise (backupError "backup database names must be unique simple names")
    else do
      let artifact ← backupDatabase lib target name.strip sourceValue
      let artifacts ← backupDatabases target databases (name.strip :: names)
      return artifact :: artifacts

def backupSqliteSet (databases : List (PyText × PyText)) (destination : PyText) : Files BackupManifest := do
  let target ← Prog.ofExcept (lib.resolve destination)
  file (.mkdir target)
  let artifacts ← backupDatabases lib target databases []
  let createdAt ← file .now
  let manifest : BackupManifest := ⟨1, createdAt, artifacts⟩
  file (.truncate (manifestPath target))
  file (.write (manifestPath target) manifest.text)
  return manifest

/-- `target.with_name(f".\x7btarget.name\x7d.restore.tmp")`. -/
def temporaryOf (target : PyPath) : Except PyException PyPath :=
  match target.getLast? with
  | none => .error (.valueError "PosixPath('/') has an empty name")
  | some name => .ok (target.dropLast ++ [PyText.utf8 "." ++ name ++ PyText.utf8 ".restore.tmp"])

def restoreSqliteBackup (backup destination expectedSha256 : PyText) (replace : Bool) : Files PyPath := do
  let source ← Prog.ofExcept (lib.resolve backup)
  let target ← Prog.ofExcept (lib.resolve destination)
  if (← isFile source) = false then .raise (backupError "backup file does not exist")
  else if PyText.utf8 (← fileDigest source) ≠ expectedSha256 then
    .raise (backupError "backup digest does not match manifest")
  else if (← integrity source) ≠ PyText.utf8 "ok" then
    .raise (backupError "backup database failed integrity check")
  else if (← pathExists target) = true ∧ replace = false then
    .raise (backupError "restore target already exists")
  else do
    file (.mkdir target.dropLast)
    let temporary ← Prog.ofExcept (temporaryOf target)
    file (.unlink temporary)
    copyDatabase source temporary
    if (← integrity temporary) ≠ PyText.utf8 "ok" then do
      file (.unlink temporary)
      .raise (backupError "restored database failed integrity check")
    else do
      file (.replace temporary target)
      return target

/-! ## Calls -/

inductive BackupCall : Type
  | backup (databases : List (PyText × PyText)) (destination : PyText)
  | restore (backup destination expectedSha256 : PyText) (replace : Bool)

inductive BackupResult : Type
  | manifest (m : BackupManifest)
  | path (p : PyPath)

def BackupCall.body : BackupCall → Files BackupResult
  | .backup databases destination => do return .manifest (← backupSqliteSet lib databases destination)
  | .restore source destination expectedSha256 replace => do
    return .path (← restoreSqliteBackup lib source destination expectedSha256 replace)

end Programs

end Rpr
