import FrostTools.Client.Commands
import FrostTools.Lib.Monitor

/-!
# Files on disk

The operating system as the environment of the commands: every system call is a step of its own, any
of them can fail, and a process that stops in the middle of a command is one that takes no further
step. Of the directories, only the files in them are modelled.
-/

namespace FrostTools.Client.Storage

/-- A path stands for the file that it resolves to in the current directory. -/
inductive Query where
  | isDir (path : String)
  | createDirAll (path : String)
  | tempfileIn (parent : String)
  /-- Answered by the number of bytes that were written. -/
  | write (file : String) (data : Bytes)
  | flush (file : String)
  | persist (file dst : String)
  /-- Removes a temporary file that goes out of scope. -/
  | drop (file : String)
  | pathExists (path : String)
  | read (path : String)
  deriving DecidableEq

/-- `none` is an I/O error. -/
@[reducible] def Query.Answer : Query → Type
  | .isDir _ => Bool
  | .createDirAll _ => Option Unit
  | .tempfileIn _ => Option String
  | .write _ _ => Option ℕ
  | .flush _ => Option Unit
  | .persist _ _ => Option Unit
  | .drop _ => Unit
  | .pathExists _ => Option Bool
  | .read _ => Option Bytes

abbrev System : Interface := ⟨Query, Query.Answer⟩

abbrev Run (α : Type) := Method System Unit ConfigError α

structure Platform where
  parent : String → Option String
  isTemp : String → Bool

def checkPath (platform : Platform) (src : String) : Run String := do
  let isDir ← Method.query (F := System) (.isDir src)
  if isDir = true then Method.fail (.eyre "Path cannot be a directory.")
  else
    let parent ← Method.lift
      (.okOr (.eyre "Path must have a parent directory.") (platform.parent src))
    let () ← Method.lift (.okOr .library (← Method.query (F := System) (.createDirAll parent)))
    pure parent

/-- Every turn but the last writes a byte, so the number of bytes bounds the turns. -/
def writeUpTo (file : String) : ℕ → Bytes → Run Unit
  | _, [] => pure ()
  | 0, _ => Method.fail .library
  | fuel + 1, data => do
    match (← Method.query (F := System) (.write file data)) with
    | some (n + 1) => writeUpTo file fuel (data.drop (n + 1))
    | _ => Method.fail .library

/-- `write_all`: writes until nothing is left. -/
def writeAll (file : String) (data : Bytes) : Run Unit := writeUpTo file data.length data

def fillFile (file dst : String) (data : Bytes) : Run Unit := do
  writeAll file data
  let () ← Method.lift (.okOr .library (← Method.query (F := System) (.flush file)))
  Method.lift (.okOr .library (← Method.query (F := System) (.persist file dst)))

/-- A temporary file is dropped when an error is returned. -/
def dropOnError {α : Type} (file : String) (x : Run α) : Run α := fun s => (x s).bind fun
  | (.err e, s') => .ask (.drop file) fun _ => .done (.err e, s')
  | r => .done r

def writeFile (platform : Platform) (src : String) (data : Bytes) : Run Unit := do
  let parent ← checkPath platform src
  let file ← Method.lift (.okOr .library (← Method.query (F := System) (.tempfileIn parent)))
  dropOnError file (fillFile file src data)

abbrev Disk := Map String Bytes

inductive Answers (platform : Platform) (disk : Disk) : (q : Query) → q.Answer → Disk → Prop
  | isDir {path : String} {a : Bool} : Answers platform disk (.isDir path) a disk
  | createDirAll {path : String} {a : Option Unit} : Answers platform disk (.createDirAll path) a disk
  | tempfileIn {parent t : String} : platform.isTemp t = true → platform.parent t = some parent →
    t ∉ disk.keys → Answers platform disk (.tempfileIn parent) (some t) (disk.insert t [])
  | tempfileInFailed {parent : String} : Answers platform disk (.tempfileIn parent) none disk
  | write {file : String} {data contents : Bytes} {n : ℕ} : disk.lookup file = some contents →
    n ≤ data.length →
    Answers platform disk (.write file data) (some n) (disk.insert file (contents ++ data.take n))
  | writeFailed {file : String} {data : Bytes} : Answers platform disk (.write file data) none disk
  | flush {file : String} {a : Option Unit} : Answers platform disk (.flush file) a disk
  | persist {file dst : String} {contents : Bytes} : disk.lookup file = some contents →
    Answers platform disk (.persist file dst) (some ()) ((disk.erase file).insert dst contents)
  | persistFailed {file dst : String} : Answers platform disk (.persist file dst) none disk
  | drop {file : String} : Answers platform disk (.drop file) () (disk.erase file)
  -- the result of the removal is ignored
  | dropFailed {file : String} : Answers platform disk (.drop file) () disk
  -- a path without a file can be a directory
  | pathExists {path : String} {a : Bool} : (path ∈ disk.keys → a = true) →
    Answers platform disk (.pathExists path) (some a) disk
  | pathExistsFailed {path : String} : Answers platform disk (.pathExists path) none disk
  | read {path : String} {contents : Bytes} : disk.lookup path = some contents →
    Answers platform disk (.read path) (some contents) disk
  | readFailed {path : String} : Answers platform disk (.read path) none disk

def os (platform : Platform) (ι : Type) : Environment System ι Disk where
  idles _ _ := False
  works _ _ _ _ := False
  answers disk _ q answer disk' := Answers platform disk q answer disk'

theorem run_answer {platform : Platform} {ι : Type} [DecidableEq ι] {α : ι → Type} {start : Disk}
    {programs : (i : ι) → Program System (α i)} {ms : List (Move System ι)}
    {s : Disk × ((i : ι) → Program System (α i))}
    (h : ((os platform ι).system start programs).Run ms s) (i : ι) {q : Query}
    {k : q.Answer → Program System (α i)} {answer : q.Answer} {disk : Disk}
    (hnext : (s.2 i).next = some ⟨q, k⟩) (hanswers : Answers platform s.1 q answer disk) :
    ((os platform ι).system start programs).Run (ms ++ [.answers i ⟨q, answer⟩])
      (disk, Function.update s.2 i (k answer)) :=
  h.snoc (.answers hnext hanswers)

end FrostTools.Client.Storage
