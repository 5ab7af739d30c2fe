import Gocoon.StoreBackends

/-!
# Reopening the file

One process after the other opens the same file with `Open`, makes its calls and ends. However the
calls are divided among them, they are answered as by a single store in memory.
-/

namespace Gocoon.ReopenedStore

open Gocoon.GoProgram
open Gocoon.BoltDatabase
open Gocoon.StoreInterface
open Gocoon.BoltStore
open Gocoon.StoreBackends

set_option autoImplicit false

abbrev LimitedCall := { call : Call // WithinLimits call.op }

/-- The calls of each process, on the file that the ones before it left. -/
def acrossProcesses (gob : Gob) : Database → List (List LimitedCall) → List Result × Database
  | db, [] => ([], db)
  | db, calls :: later =>
      let (results, after) := callAll (exec openStore db).2
        (calls.map fun call => (boltStore gob).call call.val.op)
      let (rest, last) := acrossProcesses gob after later
      (results ++ rest, last)

theorem exec_reopen (db : Database) : exec openStore db =
    (.ok (), ((db.addBucket bucketRoot).addBucket bucketClients).addBucket bucketPayments) := by
  rw [openStore, exec_map_error, exec_update, List.forM_cons,
    exec_bind_ok (exec_create_one _ (by decide) (by decide)), List.forM_cons,
    exec_bind_ok (exec_create_one _ (by decide) (by decide)), List.forM_cons,
    exec_bind_ok (exec_create_one _ (by decide) (by decide)), List.forM_nil]
  rfl

theorem reopened_represents {gob : Gob} {db : Database} {contents : Contents}
    (represents : Represents gob db contents) : Represents gob (exec openStore db).2 contents := by
  rw [exec_reopen]
  constructor
  · exact bucket_present_of_add (bucket_present_of_add (bucket_present_of_add represents.hasRoot))
  · exact bucket_present_of_add
      (bucket_present_of_add (bucket_present_of_add represents.hasClients))
  all_goals simp only [value_of_add]
  · exact represents.root
  · exact represents.clients
  · exact represents.payments
  · exact represents.requestKeys

theorem explains_append {contents : Contents} {ops later : List Op} {results rest : List Result}
    (first : contents.Explains ops results)
    (second : (ops.foldl Contents.next contents).Explains later rest) :
    contents.Explains (ops ++ later) (results ++ rest) := by
  induction ops generalizing contents results with
  | nil =>
      cases results with
      | nil => exact second
      | cons => exact first.elim
  | cons op ops ih =>
      cases results with
      | nil => exact first.elim
      | cons result results => exact ⟨first.1, ih first.2 second⟩

theorem processes_explained (gob : Gob) (processes : List (List LimitedCall)) {db : Database}
    {contents : Contents} (opened : Represents gob (exec openStore db).2 contents) :
    contents.Explains (processes.flatten.map (·.val.op)) (acrossProcesses gob db processes).1 := by
  induction processes generalizing db contents with
  | nil => trivial
  | cons calls later ih =>
      have each : List.Forall₂ (Refines (Represents gob))
          (calls.map fun call => (boltStore gob).call call.val.op) (calls.map (·.val.op)) := by
        rw [List.forall₂_map_left_iff, List.forall₂_map_right_iff, List.forall₂_same]
        exact fun call _ => (bolt_implements gob).refines call.val.op call.property
      obtain ⟨answered, after⟩ := refines_all each opened
      rw [List.flatten_cons, List.map_append]
      exact explains_append answered (ih (reopened_represents after))

/-- However calls are divided among processes that open the file one after the other, `Open`
succeeds each time, and the calls are answered as by one store in memory, up to the order of
lists. -/
theorem reopening_is_invisible (gob : Gob) (processes : List (List LimitedCall)) :
    (∀ db, (exec openStore db).1 = .ok ()) ∧
      List.Forall₂ SameResult (inMemory (processes.flatten.map (·.val))).1
        (acrossProcesses gob Database.empty processes).1 := by
  have start : Represents gob (exec openStore Database.empty).2 Contents.empty := by
    rw [exec_open]
    exact opened_represents gob
  have onDisk := processes_explained gob processes start
  have memory := refines_all
    (forall_map (Refines MemoryStore.Represents) (processes.flatten.map (·.val))
      (fun call => (MemoryStore.memoryStore call.order).call call.op) Call.op
      (fun call _ => (MemoryStore.memory_implements call.order).refines call.op trivial))
    MemoryStore.represents_new
  refine ⟨fun db => by rw [exec_reopen], explained_agree _ _ _ _ memory.1 ?_⟩
  rwa [List.map_map]

end Gocoon.ReopenedStore
