import Tinct.Document.Store

/-! The locks of a session: one for each document that is in use or kept. A task that wants a document enters
its lock's queue and is counted as a user; the head of the queue may hold the lock. The last user of a
document that is not kept takes the lock away with it. The host may hold a lock from outside. -/
namespace Tinct

abbrev TaskId := Nat
abbrev LockId := Nat

structure Locks where
  byDoc : Table DocId LockId := []
  users : Table DocId Nat := []
  queues : Table LockId (List TaskId) := []
  /-- Locks taken from outside. -/
  held : List LockId := []
  next : LockId := 0
  deriving DecidableEq, Repr

namespace Locks

def lock? (ls : Locks) (doc : DocId) : Option LockId := Table.get? doc ls.byDoc

def userCount (ls : Locks) (doc : DocId) : Nat := (Table.get? doc ls.users).getD 0

def queue (ls : Locks) (lock : LockId) : List TaskId := (Table.get? lock ls.queues).getD []

def obtain (ls : Locks) (doc : DocId) : Locks × LockId :=
  match ls.lock? doc with
  | some lock => (ls, lock)
  | none => ({ ls with byDoc := Table.put doc ls.next ls.byDoc, next := ls.next + 1 }, ls.next)

def enter (ls : Locks) (doc : DocId) (task : TaskId) : Locks × LockId :=
  let (ls, lock) := ls.obtain doc
  ({ ls with users := Table.put doc (ls.userCount doc + 1) ls.users,
             queues := Table.put lock (ls.queue lock ++ [task]) ls.queues }, lock)

def mayHold (ls : Locks) (lock : LockId) (task : TaskId) : Bool :=
  (ls.queue lock).head? = some task && !ls.held.contains lock

/-- Leaves the queue. The entry stays while there are users or the document is kept. -/
def leave (ls : Locks) (doc : DocId) (lock : LockId) (task : TaskId) (kept : Bool) : Locks :=
  let users := ls.userCount doc - 1
  let ls := { ls with queues := Table.put lock ((ls.queue lock).filter (· ≠ task)) ls.queues }
  if users ≠ 0 || kept then { ls with users := Table.put doc users ls.users }
  else { ls with users := Table.erase doc ls.users, byDoc := Table.erase doc ls.byDoc,
                 queues := Table.erase lock ls.queues }

def hold (ls : Locks) (lock : LockId) : Locks := { ls with held := lock :: ls.held }

def release (ls : Locks) (lock : LockId) : Locks := { ls with held := ls.held.filter (· ≠ lock) }

end Locks
end Tinct
