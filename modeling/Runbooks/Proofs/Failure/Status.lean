import Runbooks.Session.Program

namespace Runbooks

namespace Failure

theorem exitStatus_failedEngine {name : String} {status : Option Int}
    (h : status ≠ some 0) : (failedEngine name status).exitStatus = status.getD 2 := by
  rcases status with _ | n
  · rfl
  · have hn : n ≠ 0 := fun hn => h (congrArg some hn)
    simp only [exitStatus, if_neg hn, Option.getD_some]

theorem exitStatus_ne_zero (f : Failure) : f.exitStatus ≠ 0 := by
  cases f with
  | failedEngine program status =>
    rcases status with _ | n
    · exact (by decide : (2 : Int) ≠ 0)
    · change (if n = 0 then 2 else n) ≠ 0
      split
      · decide
      · assumption
  | source | invalid | idleStep => exact (by decide : (4 : Int) ≠ 0)
  | missingEngine => exact (by decide : (127 : Int) ≠ 0)
  | unrendered | unwritten | setting | system | other => exact (by decide : (1 : Int) ≠ 0)

end Failure

/-- The outermost failure of this program in a chain, if there is one: what stands around it is
foreign, and without one the whole chain is. -/
inductive Outermost : List Link → Option Failure → Prop
  | own (contexts : List String) (f : Failure) (inner : List Link) :
      Outermost (contexts.map Link.foreign ++ .own f :: inner) (some f)
  | foreign (texts : List String) : Outermost (texts.map Link.foreign) none

def Link.failure? : Link → Option Failure
  | own f => some f
  | foreign _ => none

section Chains

variable {chain : List Link} {outermost : Option Failure}

theorem exists_outermost (chain : List Link) : ∃ outermost, Outermost chain outermost := by
  induction chain with
  | nil => exact ⟨none, .foreign []⟩
  | cons link inner ih =>
    cases link with
    | own f => exact ⟨some f, .own [] f inner⟩
    | foreign text =>
      obtain ⟨outermost, h⟩ := ih
      cases h with
      | own contexts f inner => exact ⟨some f, .own (text :: contexts) f inner⟩
      | foreign texts => exact ⟨none, .foreign (text :: texts)⟩

theorem findSome?_failure?_foreign (texts : List String) :
    (texts.map Link.foreign).findSome? Link.failure? = none := by
  rw [List.findSome?_map, List.findSome?_eq_none_iff]
  exact fun _ _ => rfl

theorem Outermost.findSome?_eq (h : Outermost chain outermost) :
    chain.findSome? Link.failure? = outermost := by
  cases h with
  | own contexts f inner =>
    rw [List.findSome?_append, findSome?_failure?_foreign]
    rfl
  | foreign texts => exact findSome?_failure?_foreign texts

theorem Outermost.iff_eq (h : Outermost chain outermost) (other : Option Failure) :
    Outermost chain other ↔ other = outermost := by
  constructor
  · intro hother
    exact hother.findSome?_eq.symm.trans h.findSome?_eq
  · rintro rfl
    exact h

theorem exitStatusOf_foreign_append (contexts : List String) (chain : List Link) :
    exitStatusOf (contexts.map Link.foreign ++ chain) = exitStatusOf chain := by
  induction contexts with
  | nil => rfl
  | cons text contexts ih => exact ih

theorem Outermost.exitStatusOf_eq (h : Outermost chain outermost) :
    exitStatusOf chain = (outermost.map Failure.exitStatus).getD 1 := by
  cases h with
  | own contexts f inner =>
    rw [exitStatusOf_foreign_append]
    rfl
  | foreign texts =>
    rw [← List.append_nil (texts.map Link.foreign), exitStatusOf_foreign_append]
    rfl

theorem exitStatusOf_ne_zero (chain : List Link) : exitStatusOf chain ≠ 0 := by
  obtain ⟨outermost, h⟩ := exists_outermost chain
  rw [h.exitStatusOf_eq]
  cases outermost with
  | none => exact (by decide : (1 : Int) ≠ 0)
  | some f => exact f.exitStatus_ne_zero

end Chains

namespace Session

theorem finish_status_eq_zero_iff (x : Context) (c : Course) :
    (finish x c).status = 0 ↔ c.failure = none := by
  unfold finish
  cases c.failure with
  | none => exact iff_of_true rfl rfl
  | some f => exact iff_of_false (exitStatusOf_ne_zero [.own f]) (Option.some_ne_none f)

theorem carryOut_status_eq_zero_iff (m : Machine) (i : CommandLine.Invocation) :
    (carryOut m i).status = 0 ↔
      ∃ c, Config.load m.disk m.cwd m.vars i.globals.config m.home = .ok c ∧
        ((context m i c).perform i.request).failure = none := by
  unfold carryOut
  cases Config.load m.disk m.cwd m.vars i.globals.config m.home with
  | error f => simpa using f.exitStatus_ne_zero
  | ok c => simpa using finish_status_eq_zero_iff _ _

end Session

/-- A failure never ends in the status of success, nor does a chain of failures. The chain has the
status of its outermost failure of this program, or one where there is none, and keeps it in any
foreign contexts; and a session that carries out an invocation ends with zero only where nothing
fails. -/
theorem Failure.never_exits_as_success :
    (∀ f : Failure, f.exitStatus ≠ 0) ∧
    (∀ chain : List Link,
      (∃ outermost, (∀ other, Outermost chain other ↔ other = outermost) ∧
        exitStatusOf chain = (outermost.map exitStatus).getD 1) ∧
      exitStatusOf chain ≠ 0 ∧
      ∀ contexts : List String,
        exitStatusOf (contexts.map Link.foreign ++ chain) = exitStatusOf chain) ∧
    ∀ (m : Machine) (i : CommandLine.Invocation),
      (Session.carryOut m i).status = 0 ↔
        ∃ c, Config.load m.disk m.cwd m.vars i.globals.config m.home = .ok c ∧
          ((Session.context m i c).perform i.request).failure = none := by
  refine ⟨exitStatus_ne_zero, ?_, Session.carryOut_status_eq_zero_iff⟩
  intro chain
  obtain ⟨outermost, h⟩ := exists_outermost chain
  refine ⟨⟨outermost, h.iff_eq, h.exitStatusOf_eq⟩, exitStatusOf_ne_zero chain, ?_⟩
  intro contexts
  exact exitStatusOf_foreign_append contexts chain

/-- A context of this program's own is a failure of its own, and hides the status of another. -/
example (status : Option Int) :
    exitStatusOf [.foreign "deploying",
      .own ((Failure.failedEngine "ansible-playbook" status).inContext "running")] = 1 :=
  rfl

end Runbooks
