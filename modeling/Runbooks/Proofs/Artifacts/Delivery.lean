import Runbooks.Artifacts.Delivery
import Runbooks.Proofs.Files.Operations

/-!
What a delivery leaves on a disk. One that stops leaves it as it was, but for directories that were
made and for an inventory that had taken its place before the playbook could; what was staged is
gone. One that arrives leaves the playbook, and the inventory next to it if the two have different
places.
-/

namespace Runbooks

theorem Inventory.head?_text (i : Inventory) : i.text.toList.head? = some '[' := by
  rw [Inventory.text, Inventory.lines, Inventory.header, List.map_cons, String.join_cons]
  simp only [String.toList_append, List.append_assoc]
  rfl

theorem Play.head?_write (p : Play) : (Play.write [p]).toList.head? = some '-' := by
  rw [Play.write, Yaml.Value.write, Play.document, List.map_singleton]
  simp only [Yaml.Writer.node, Yaml.Writer.itemLines, String.toList_ofList]
  rfl

theorem Artifacts.render_inventory_ne_playbook (a : Artifacts) :
    a.render.inventory ≠ a.render.playbook := by
  intro heq
  have hinventory := a.inventory.head?_text
  rw [show a.inventory.text = Play.write [a.playbook] from heq, a.playbook.head?_write] at hinventory
  cases hinventory

/-- A delivery with all that it depends on but the disk. -/
structure Attempt where
  obstacle : Obstacle
  cwd : Place
  dir : String
  names : ArtifactNames
  artifacts : Artifacts

namespace Attempt

def target (a : Attempt) : Delivery :=
  .ofNames a.dir a.names

def run (a : Attempt) (d : Disk) : Except Failure Delivery × Disk :=
  a.artifacts.render.deliver a.obstacle a.cwd a.dir a.names d

/-- The disk after some attempts, whether they succeed or not. -/
def runAll (attempts : List Attempt) (d : Disk) : Disk :=
  attempts.foldl (fun d a => (a.run d).2) d

def inventoryPlace (a : Attempt) : Place :=
  .ofPath a.cwd a.target.inventoryPath

def playbookPlace (a : Attempt) : Place :=
  .ofPath a.cwd a.target.playbookPath

/-- The places on the way to the output directory. -/
def Way (a : Attempt) : Place → Prop :=
  Disk.OnWay (Disk.start a.cwd a.dir) (Path.pieces a.dir)

section Steps

def make (a : Attempt) (d : Disk) : Except SystemError Unit × Disk :=
  d.makeDirectories a.obstacle a.cwd a.dir

def stageInventory (a : Attempt) (d : Disk) : Except SystemError Place × Disk :=
  d.stage a.obstacle a.cwd a.target.inventoryPath a.artifacts.render.inventory

def stagePlaybook (a : Attempt) (d : Disk) : Except SystemError Place × Disk :=
  d.stage a.obstacle a.cwd a.target.playbookPath a.artifacts.render.playbook

def moveInventory (a : Attempt) (source : Place) (d : Disk) : Except SystemError Place × Disk :=
  d.move a.obstacle a.cwd source a.target.inventoryPath

def movePlaybook (a : Attempt) (source : Place) (d : Disk) : Except SystemError Place × Disk :=
  d.move a.obstacle a.cwd source a.target.playbookPath

/-- Both texts are staged below an output directory that is there. -/
structure Readies (a : Attempt) (d made staged : Disk) (first second : Place) : Prop where
  makes : a.make d = (.ok (), made)
  stages : ∃ between, a.stageInventory made = (.ok first, between) ∧
    a.stagePlaybook between = (.ok second, staged)

/-- Where a delivery stops. -/
inductive Halt where
  | makingDirectory
  | stagingInventory
  | stagingPlaybook
  | movingInventory
  | movingPlaybook
  deriving DecidableEq

/-- How an attempt fails at each of its steps, and the disk that it leaves. -/
inductive Halts (a : Attempt) (d : Disk) : Halt → Failure → Disk → Prop
  | makingDirectory {e : SystemError} {d' : Disk}
      (h : a.make d = (.error e, d')) :
      Halts a d .makingDirectory (.unwritten a.dir e.message) d'
  | stagingInventory {e : SystemError} {made d' : Disk}
      (makes : a.make d = (.ok (), made))
      (h : a.stageInventory made = (.error e, d')) :
      Halts a d .stagingInventory (.unwritten a.target.inventoryPath e.message) d'
  | stagingPlaybook {e : SystemError} {made between d' : Disk} {first : Place}
      (makes : a.make d = (.ok (), made))
      (stages : a.stageInventory made = (.ok first, between))
      (h : a.stagePlaybook between = (.error e, d')) :
      Halts a d .stagingPlaybook (.unwritten a.target.playbookPath e.message) (d'.remove first)
  | movingInventory {e : SystemError} {made staged d' : Disk} {first second : Place}
      (readies : a.Readies d made staged first second)
      (h : a.moveInventory first staged = (.error e, d')) :
      Halts a d .movingInventory (.unwritten a.target.inventoryPath e.message)
        ((d'.remove first).remove second)
  | movingPlaybook {e : SystemError} {made staged moved d' : Disk} {first second p : Place}
      (readies : a.Readies d made staged first second)
      (moves : a.moveInventory first staged = (.ok p, moved))
      (h : a.movePlaybook second moved = (.error e, d')) :
      Halts a d .movingPlaybook (.unwritten a.target.playbookPath e.message) (d'.remove second)

inductive Ends (a : Attempt) (d : Disk) : Except Failure Delivery × Disk → Prop
  | halts {halt : Halt} {f : Failure} {d' : Disk} (h : a.Halts d halt f d') : Ends a d (.error f, d')
  | arrives {made staged moved d' : Disk} {first second p q : Place}
      (readies : a.Readies d made staged first second)
      (moves : a.moveInventory first staged = (.ok p, moved))
      (h : a.movePlaybook second moved = (.ok q, d')) :
      Ends a d (.ok a.target, d')

theorem run_ends (a : Attempt) (d : Disk) : a.Ends d (a.run d) := by
  unfold run Rendered.deliver
  simp only
  split
  · rename_i hmake
    exact .halts (.makingDirectory hmake)
  rename_i hmake
  split
  · rename_i hinventory
    exact .halts (.stagingInventory hmake hinventory)
  rename_i between hinventory
  split
  · rename_i hplaybook
    exact .halts (.stagingPlaybook hmake hinventory hplaybook)
  rename_i hplaybook
  have hreadies := Readies.mk hmake ⟨between, hinventory, hplaybook⟩
  unfold Rendered.settle
  split
  · rename_i hmove
    exact .halts (.movingInventory hreadies hmove)
  rename_i hmove
  split
  · rename_i hmove'
    exact .halts (.movingPlaybook hreadies hmove hmove')
  · rename_i hmove'
    exact .arrives hreadies hmove hmove'

end Steps

section Contents

variable {a : Attempt} {d made staged moved d' : Disk} {first second p q : Place}

def inventoryEntry (a : Attempt) : Entry :=
  .ofText a.artifacts.render.inventory

def playbookEntry (a : Attempt) : Entry :=
  .ofText a.artifacts.render.playbook

theorem make_addsDirectories (a : Attempt) (d : Disk) :
    Disk.AddsDirectories a.Way d (a.make d).2 :=
  Disk.makeDirectories_addsDirectories d

namespace Readies

theorem addsDirectories (h : a.Readies d made staged first second) :
    Disk.AddsDirectories a.Way d made := by
  have hadds := a.make_addsDirectories d
  rwa [h.makes] at hadds

/-- Either text may be taken for the one that was staged last. -/
theorem stages_both (h : a.Readies d made staged first second) :
    Disk.Stages made (staged.remove first) second a.artifacts.render.playbook ∧
      Disk.Stages (staged.remove first) staged first a.artifacts.render.inventory := by
  obtain ⟨between, hinventory, hplaybook⟩ := h.stages
  exact (Disk.stages_of_stage hinventory).swap (Disk.stages_of_stage hplaybook)

theorem moves_inventory (h : a.Readies d made staged first second)
    (hmove : a.moveInventory first staged = (.ok p, moved)) :
    Disk.Moves staged moved a.cwd a.target.inventoryPath first a.inventoryPlace
      a.artifacts.render.inventory := by
  have hmoves := Disk.moves_of_move h.stages_both.2.get?_self hmove
  have hp : a.inventoryPlace = p := hmoves.ofPath_eq
  rwa [hp]

theorem stages_playbook (h : a.Readies d made staged first second)
    (hmove : a.moveInventory first staged = (.ok p, moved)) :
    Disk.Stages (made.put a.inventoryPlace a.inventoryEntry) moved second
      a.artifacts.render.playbook := by
  have hmoves := h.moves_inventory hmove
  rw [hmoves.eq_put]
  exact h.stages_both.1.put hmoves.ne_nil hmoves.not_isHidden

theorem moves_playbook (h : a.Readies d made staged first second)
    (hmove : a.moveInventory first staged = (.ok p, moved))
    (hmove' : a.movePlaybook second moved = (.ok q, d')) :
    Disk.Moves moved d' a.cwd a.target.playbookPath second a.playbookPlace
      a.artifacts.render.playbook := by
  have hmoves := Disk.moves_of_move (h.stages_playbook hmove).get?_self hmove'
  have hq : a.playbookPlace = q := hmoves.ofPath_eq
  rwa [hq]

end Readies

/-- What an attempt leaves that stops: the inventory is in its place if only the playbook was left
to move, and every other place is spared. Temporaries are staged at hidden places. -/
structure Keeps (a : Attempt) (halt : Halt) (before after : Disk) : Prop where
  places : ∀ p, (p = a.inventoryPlace → halt ≠ .movingPlaybook) →
    Disk.Spares a.Way before after p
  inventory : halt = .movingPlaybook → after.get? a.inventoryPlace = some a.inventoryEntry
  temporaries : ∀ p, p.IsHidden → after.get? p = before.get? p

/-- What an attempt leaves that arrives: of two texts for one place the playbook is there. -/
structure Delivers (a : Attempt) (before after : Disk) : Prop where
  places : ∀ p, p ≠ a.inventoryPlace → p ≠ a.playbookPlace → Disk.Spares a.Way before after p
  playbook : after.read a.cwd a.target.playbookPath = .ok a.artifacts.render.playbook
  inventory : a.inventoryPlace ≠ a.playbookPlace →
    after.read a.cwd a.target.inventoryPath = .ok a.artifacts.render.inventory
  overwritten : a.inventoryPlace = a.playbookPlace →
    after.read a.cwd a.target.inventoryPath = .ok a.artifacts.render.playbook
  temporaries : ∀ p, p.IsHidden → after.get? p = before.get? p

theorem get?_of_hidden (hadds : Disk.AddsDirectories a.Way d made) (hp : p.IsHidden) :
    made.get? p = d.get? p := by
  rcases hadds p with heq | ⟨hway, -, -⟩
  · exact heq
  · exact absurd hp hway.not_hidden

theorem keeps_of_made {halt : Halt} (hadds : Disk.AddsDirectories a.Way d made)
    (heq : d'.get? = made.get?) (hhalt : halt ≠ .movingPlaybook) : a.Keeps halt d d' where
  places p _ := (hadds p).congr (congrFun heq p)
  inventory h := absurd h hhalt
  temporaries p hp := by rw [heq, get?_of_hidden hadds hp]

theorem Halts.keeps {halt : Halt} {f : Failure} (h : a.Halts d halt f d') : a.Keeps halt d d' := by
  have hadds := a.make_addsDirectories d
  cases h with
  | makingDirectory h =>
    rw [h] at hadds
    exact keeps_of_made hadds rfl nofun
  | stagingInventory makes h =>
    rw [makes] at hadds
    exact keeps_of_made hadds (Disk.get?_of_stage_error h) nofun
  | stagingPlaybook makes stages h =>
    rw [makes] at hadds
    have hstages := (Disk.stages_of_stage stages).congr (Disk.get?_of_stage_error h)
    exact keeps_of_made hadds hstages.get?_remove nofun
  | movingInventory readies h =>
    obtain rfl := Disk.move_error h
    exact keeps_of_made readies.addsDirectories readies.stages_both.1.get?_remove nofun
  | movingPlaybook readies moves h =>
    obtain rfl := Disk.move_error h
    have hmoves := readies.moves_inventory moves
    have hcontents := (readies.stages_playbook moves).get?_remove
    rw [Disk.get?_put hmoves.ne_nil] at hcontents
    refine ⟨fun p hp => ?_, fun _ => ?_, fun p hp => ?_⟩
    · apply (readies.addsDirectories p).congr
      rw [hcontents, Function.update_of_ne fun heq => hp heq rfl]
    · rw [hcontents, Function.update_self]
    · rw [hcontents, Function.update_of_ne (hp.ne hmoves.not_isHidden),
        get?_of_hidden readies.addsDirectories hp]

theorem Readies.delivers (readies : a.Readies d made staged first second)
    (moves : a.moveInventory first staged = (.ok p, moved))
    (moves' : a.movePlaybook second moved = (.ok q, d')) : a.Delivers d d' := by
  have hinventory := readies.moves_inventory moves
  have hstages := readies.stages_playbook moves
  have hplaybook := readies.moves_playbook moves moves'
  have hcontents : d'.get? = Function.update
      (Function.update made.get? a.inventoryPlace (some a.inventoryEntry))
      a.playbookPlace (some a.playbookEntry) := by
    rw [hplaybook.get?_eq hstages, Disk.get?_put hplaybook.ne_nil, Disk.get?_put hinventory.ne_nil]
    rfl
  have hmoved : ∀ q, moved.isDirectory q = true → d'.isDirectory q = true :=
    fun q => hplaybook.isDirectory hstages.hidden.ne_nil
  have hstaged : ∀ q, staged.isDirectory q = true → d'.isDirectory q = true :=
    fun q hq => hmoved q (hinventory.isDirectory readies.stages_both.2.hidden.ne_nil hq)
  have hlast : d'.get? a.playbookPlace = some a.playbookEntry := by
    rw [hcontents, Function.update_self]
  refine ⟨?_, hplaybook.read_eq hmoved hlast, ?_, ?_, ?_⟩
  · intro p hp hq
    apply (readies.addsDirectories p).congr
    rw [hcontents, Function.update_of_ne hq, Function.update_of_ne hp]
  · intro hne
    apply hinventory.read_eq hstaged
    rw [hcontents, Function.update_of_ne hne, Function.update_self]
    rfl
  · intro heq
    apply hinventory.read_eq hstaged
    rw [heq, hlast]
    rfl
  · intro p hp
    rw [hcontents, Function.update_of_ne (hp.ne hplaybook.not_isHidden),
      Function.update_of_ne (hp.ne hinventory.not_isHidden),
      get?_of_hidden readies.addsDirectories hp]

theorem get?_run_of_hidden (hp : p.IsHidden) : (a.run d).2.get? p = d.get? p := by
  have hends := a.run_ends d
  generalize a.run d = result at hends
  cases hends with
  | halts h => exact h.keeps.temporaries p hp
  | arrives readies moves h => exact (readies.delivers moves h).temporaries p hp

theorem get?_runAll_of_hidden (hp : p.IsHidden) (attempts : List Attempt) :
    (runAll attempts d).get? p = d.get? p := by
  induction attempts generalizing d with
  | nil => rfl
  | cons a attempts ih =>
    change (runAll attempts (a.run d).2).get? p = d.get? p
    rw [ih, get?_run_of_hidden hp]

end Contents

theorem eq_mk_of_fst_eq {α β : Type} {x : α × β} {a : α} (h : x.1 = a) : x = (a, x.2) := by
  rw [← h]

/-- An attempt to deliver one host and one task below `out`. -/
def small (inventory playbook : String) : Attempt where
  obstacle := .none
  cwd := []
  dir := "out"
  names := { inventory, playbook }
  artifacts := {
    inventory := { group := managedGroup, hosts := [{ address := "web" }] }
    playbook := { name := "ping", tasks := [{ name := "ping", action := .shell "echo pong" }] }
    debug := false }

/-- An attempt that fails, whatever went before, stops at one of the steps and leaves the disk as a
stop there should; no temporary of this attempt or an earlier one is left. -/
theorem failure_leaves_disk_intact (start : Disk) (earlier : List Attempt) (a : Attempt)
    {f : Failure} {after : Disk} (h : a.run (runAll earlier start) = (.error f, after)) :
    ∃ halt, a.Halts (runAll earlier start) halt f after ∧
      a.Keeps halt (runAll earlier start) after ∧
      ∀ p, p.IsHidden → after.get? p = start.get? p := by
  have hends := a.run_ends (runAll earlier start)
  rw [h] at hends
  cases hends with
  | @halts halt _ _ hhalts =>
    refine ⟨halt, hhalts, hhalts.keeps, fun p hp => ?_⟩
    rw [hhalts.keeps.temporaries p hp, get?_runAll_of_hidden hp]

/-- A disk with a directory where the playbook goes, and an older inventory. -/
def blocked : Disk :=
  ⟨[(["out"], .directory), (["out", "hosts"], .ofText "old"), (["out", "site"], .directory)]⟩

theorem failure_leaves_disk_intact_blocked :
    ((small "hosts" "site").run (runAll [small "hosts" "site"] blocked)).1 =
      .error (.unwritten "out/site" "Is a directory (os error 21)") ∧
    ∃ halt, (small "hosts" "site").Keeps halt (runAll [small "hosts" "site"] blocked)
        ((small "hosts" "site").run (runAll [small "hosts" "site"] blocked)).2 ∧
      ∀ p, p.IsHidden →
        ((small "hosts" "site").run (runAll [small "hosts" "site"] blocked)).2.get? p =
          blocked.get? p := by
  have hfails : ((small "hosts" "site").run (runAll [small "hosts" "site"] blocked)).1 =
      .error (.unwritten "out/site" "Is a directory (os error 21)") := by decide +kernel
  obtain ⟨halt, -, hkeeps, hhidden⟩ :=
    failure_leaves_disk_intact blocked [small "hosts" "site"] (small "hosts" "site")
      (eq_mk_of_fst_eq hfails)
  exact ⟨hfails, halt, hkeeps, hhidden⟩

/-- An attempt that succeeds delivers both texts exactly if they have different places. -/
theorem success_delivers_both_iff (a : Attempt) (d : Disk) {delivery : Delivery} {after : Disk}
    (h : a.run d = (.ok delivery, after)) :
    delivery = a.target ∧ a.Delivers d after ∧
      (after.read a.cwd delivery.inventoryPath = .ok a.artifacts.render.inventory ↔
        a.inventoryPlace ≠ a.playbookPlace) := by
  have hends := a.run_ends d
  rw [h] at hends
  cases hends with
  | arrives readies moves moves' =>
    have hdelivers := readies.delivers moves moves'
    refine ⟨rfl, hdelivers, fun hread heq => ?_, hdelivers.inventory⟩
    rw [hdelivers.overwritten heq] at hread
    exact a.artifacts.render_inventory_ne_playbook (Except.ok.inj hread).symm

theorem success_delivers_both_iff_hosts_site :
    ((small "hosts" "site").run {}).1 = .ok (small "hosts" "site").target ∧
    ((small "hosts" "site").run {}).2.read [] "out/hosts" =
      .ok (small "hosts" "site").artifacts.render.inventory := by
  have hsucceeds : ((small "hosts" "site").run {}).1 = .ok (small "hosts" "site").target := by
    decide +kernel
  obtain ⟨-, -, hboth⟩ := success_delivers_both_iff (small "hosts" "site") {}
    (eq_mk_of_fst_eq hsucceeds)
  exact ⟨hsucceeds, hboth.mpr (by decide +kernel)⟩

/-- Under one name for both the attempt succeeds, and the inventory is lost. -/
theorem success_loses_inventory_of_one_name :
    ((small "same" "same").run {}).1 = .ok (small "same" "same").target ∧
    (small "same" "same").target.inventoryPath = "out/same" ∧
    ((small "same" "same").run {}).2.read [] "out/same" ≠
      .ok (small "same" "same").artifacts.render.inventory := by
  decide +kernel

end Attempt

end Runbooks
