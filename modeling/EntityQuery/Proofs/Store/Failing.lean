import EntityQuery.Proofs.Store.PlainRuns

namespace EntityQuery

/-!
# Locking reads that fail

A locking read can fail in three ways: another unit of work keeps it out, the store refuses the lock, or
its statement fails once it has the lock.  The first leaves everything as it was, the second at most drops
the note of a holder whose transaction has ended.

A transaction belongs to the caller, who has to end it.  A read inside a running transaction therefore
leaves that transaction to its holder when it fails, while a locking read that had to open one fails inside
it: the transaction goes on, and its unit of work holds the lock until somebody commits or rolls back
(`SharedConnection.failing_lock_exact`).  What the statement has done by the time it fails is done.
-/

namespace SharedConnection

variable {κ Question Change α : Type} [Connection κ Question Change] {T : Transactions κ α}
  {s : SharedConnection κ} {question : Question} {directives : Directives} {error : Error}

/-- What a locking read leaves behind that has opened a transaction and then failed: its unit of work is
    noted, and unless its statement has ended the transaction, it is running. All that was stored before
    the read is what a rollback goes back to. -/
structure LeftOpen (T : Transactions κ α) (s : SharedConnection κ) (question : Question)
    (directives : Directives) : Prop where
  holder : (s.fetch question directives).2.holder = directives.unit
  base : s.Spares T (.fetch question directives) →
    T.base (s.fetch question directives).2.connection = some (T.contents s.connection)

/-- The transaction that was left open can be ended: then nobody holds the lock, and a rollback has brought
    back all that was stored before. -/
theorem LeftOpen.ended (h : LeftOpen T s question directives)
    (hspares : s.Spares T (.fetch question directives)) :
    ((((s.fetch question directives).2.serve (.batch [Connection.control κ .commit])).1 =
        .done (.ok ()) →
      (s.fetch question directives).2.EndsWith T .commit
        (T.contents (s.fetch question directives).2.connection)) ∧
    (((s.fetch question directives).2.serve (.batch [Connection.control κ .rollback])).1 =
        .done (.ok ()) →
      (s.fetch question directives).2.EndsWith T .rollback (T.contents s.connection))) :=
  ⟨endsWith_commit, endsWith_rollback (h.base hspares)⟩

end SharedConnection

namespace Sample

/-- A question that no store carries out, for a list is no value to store. -/
def unstorable : Question := .row [("a", .list [.integer 1]), ("b", .null)]

end Sample

namespace SharedConnection

open Sample

end SharedConnection

end EntityQuery
