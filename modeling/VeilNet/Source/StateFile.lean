import VeilNet.Lib.Script

/-!
The state files of the service: `killswitch.json`, `dns.json` and `routes.json` are each written
to one place and also read and removed in an older one. A file is what `json.Unmarshal` makes of
it. Loops that only read are one command. Making the directory, whose errors are ignored, is left
out.
-/
namespace VeilNet.Source
open Lib

inductive Place where
  | primary | legacy
  deriving DecidableEq

/-- Where the files are: nowhere without a home directory, in one directory when it is
given or both places coincide, or in the state directory with `~/.veilnet` as legacy. -/
inductive StateDir where
  | homeless | single | migrating
  deriving DecidableEq

def StateDir.paths : StateDir → List Place
  | .homeless => []
  | .single => [.primary]
  | .migrating => [.primary, .legacy]

theorem StateDir.paths_of_located {dir : StateDir} (located : dir ≠ .homeless) :
    ∃ rest, dir.paths = .primary :: rest := by
  cases dir with
  | homeless => exact absurd rfl located
  | single | migrating => exact ⟨_, rfl⟩

/-- What is in a file. -/
inductive Content (ρ : Type) where
  | record (value : ρ)
  | garbled
  deriving DecidableEq

structure Files (ρ : Type) where
  primary : Option (Content ρ)
  legacy : Option (Content ρ)
  deriving DecidableEq

namespace Files
variable {ρ : Type}

def empty : Files ρ := ⟨none, none⟩

def get (files : Files ρ) : Place → Option (Content ρ)
  | .primary => files.primary
  | .legacy => files.legacy

def put (files : Files ρ) (content : Option (Content ρ)) : Place → Files ρ
  | .primary => { files with primary := content }
  | .legacy => { files with legacy := content }

/-- The first file that can be read. -/
def readable (files : Files ρ) : List Place → Option (Content ρ)
  | [] => none
  | place :: rest =>
    match files.get place with
    | some content => some content
    | none => files.readable rest

/-- The record of the first file that can be read and parsed. -/
def load (files : Files ρ) : List Place → Option ρ
  | [] => none
  | place :: rest =>
    match files.get place with
    | some (.record value) => some value
    | some .garbled | none => files.load rest

theorem load_empty (paths : List Place) : (empty : Files ρ).load paths = none := by
  induction paths with
  | nil => rfl
  | cons place rest ih => cases place <;> exact ih

theorem readable_empty (paths : List Place) : (empty : Files ρ).readable paths = none := by
  induction paths with
  | nil => rfl
  | cons place rest ih => cases place <;> exact ih

end Files

/-- How a command or a write goes. A write that fails leaves the file as it was, or with
something in it. -/
inductive Fate where
  | works
  | fails (err : String) (left : Option String)
  deriving DecidableEq

/-- The errors of a write and of a removal are ignored everywhere. -/
inductive FileOp (ρ : Type) where
  | stat (paths : List Place)
  | read (paths : List Place)
  | load (paths : List Place)
  | write (place : Place) (value : ρ)
  | remove (place : Place)

section files
variable {ρ : Type}

abbrev FileOp.Reply : FileOp ρ → Type
  | .stat _ => Bool
  | .read _ => Option (Content ρ)
  | .load _ => Option ρ
  | .write _ _ | .remove _ => Unit

/-- Only a write meets its fate; half a record does not parse. -/
def FileOp.act (fate : Fate) : Machine (@FileOp.Reply ρ) (Files ρ)
  | .stat paths, files => ((files.readable paths).isSome, files)
  | .read paths, files => (files.readable paths, files)
  | .load paths, files => (files.load paths, files)
  | .write place value, files =>
    ((), match fate with
      | .works => files.put (some (.record value)) place
      | .fails _ none => files
      | .fails _ (some _) => files.put (some .garbled) place)
  | .remove place, files => ((), files.put none place)

end files

end VeilNet.Source
