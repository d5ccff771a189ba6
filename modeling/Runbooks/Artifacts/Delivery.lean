import Runbooks.Artifacts
import Runbooks.Files.Disk

namespace Runbooks

/-- The names of the two files below the output directory. -/
structure ArtifactNames where
  inventory : String := "hosts"
  playbook : String := "playbook.yml"
  deriving DecidableEq, Repr

/-- The paths under which artifacts were delivered. -/
structure Delivery where
  outputDir : String
  inventoryPath : String
  playbookPath : String
  deriving DecidableEq, Repr

namespace Delivery

def ofNames (dir : String) (names : ArtifactNames) : Delivery where
  outputDir := dir
  inventoryPath := Path.join dir names.inventory
  playbookPath := Path.join dir names.playbook

end Delivery

namespace Rendered

def unwritten {α : Type} (path : String) (e : SystemError) : Except Failure α :=
  .error (.unwritten path e.message)

/-- Moves two staged files to their paths, the inventory first. What is not moved is removed. -/
def settle (o : Obstacle) (cwd first second : Place) (target : Delivery) (d : Disk) :
    Except Failure Delivery × Disk :=
  match d.move o cwd first target.inventoryPath with
  | (.error e, d) => (unwritten target.inventoryPath e, (d.remove first).remove second)
  | (.ok _, d) =>
    match d.move o cwd second target.playbookPath with
    | (.error e, d) => (unwritten target.playbookPath e, d.remove second)
    | (.ok _, d) => (.ok target, d)

/-- Writes both texts below an output directory, which is made if it is missing. -/
def deliver (o : Obstacle) (cwd : Place) (dir : String) (names : ArtifactNames) (r : Rendered)
    (d : Disk) : Except Failure Delivery × Disk :=
  let target := Delivery.ofNames dir names
  match d.makeDirectories o cwd dir with
  | (.error e, d) => (unwritten dir e, d)
  | (.ok (), d) =>
    match d.stage o cwd target.inventoryPath r.inventory with
    | (.error e, d) => (unwritten target.inventoryPath e, d)
    | (.ok first, d) =>
      match d.stage o cwd target.playbookPath r.playbook with
      | (.error e, d) => (unwritten target.playbookPath e, d.remove first)
      | (.ok second, d) => settle o cwd first second target d

end Rendered

end Runbooks
