import Kaede.Properties.MemoryPipeline
import Kaede.Properties.Permanence

/-!
# The context of a prompt depends on the winners only

* `getContextMemories_time` — with exact scores, the time of the query does not matter
* `getContextMemories_deleteWhere` — deleting rows that are not shown changes nothing
* `contextRanking` — neither the query time nor the rows that are not shown matter
-/

namespace Kaede

open Infra

variable {table : MemoryTable} {limit : Int}

/-- Waiting lowers all exact scores alike, so it does not change their order. -/
theorem getContextMemories_time (currentTime currentTime' limit : Int) (table : MemoryTable) :
    MemoryRepository.getContextMemories currentTime limit table =
      MemoryRepository.getContextMemories currentTime' limit table := by
  refine congrArg (MemoryDao.sqlLimit limit) (rankDesc_congr (fun x y => ?_) _)
  unfold MemoryDao.ContextScore.ofRow MemoryDao.exactScore
  push_cast
  constructor <;> intro h <;> linarith

theorem getContextMemories_deleteWhere {currentTime : Int} (hlimit : 0 ≤ limit)
    {p : MemoryEntity → Bool}
    (hlosers : ∀ row ∈ MemoryRepository.getContextMemories currentTime limit table, p row = false) :
    MemoryRepository.getContextMemories currentTime limit (MemoryDao.deleteWhere p table) =
      MemoryRepository.getContextMemories currentTime limit table := by
  have htake : ∀ rows : List MemoryEntity, MemoryDao.sqlLimit limit rows = rows.take limit.toNat :=
    fun _ => if_neg (Int.not_lt.mpr hlimit)
  unfold MemoryRepository.getContextMemories MemoryDao.getContextMemories
    MemoryDao.getContextMemoriesBy at hlosers ⊢
  rw [htake] at hlosers
  rw [htake, htake]
  refine take_rankDesc_filter fun row hrow => ?_
  rw [hlosers row hrow]
  rfl

/--
**The context ranking depends neither on the query time nor on losers.**

It shows the `limit` highest rows in order. Queries at any two times agree, also when rows that
are not shown are deleted in between.
-/
theorem contextRanking (table : MemoryTable) (hlimit : 0 ≤ limit) (currentTime currentTime' : Int) :
    MemoryRepository.getContextMemories currentTime' limit table =
        MemoryRepository.getContextMemories currentTime limit table ∧
      (∃ ranking : List MemoryEntity, ranking.Perm table.rows ∧
        ranking.Pairwise (fun higher lower => lower.rank ≤ higher.rank) ∧
        MemoryRepository.getContextMemories currentTime limit table =
          ranking.take limit.toNat) ∧
      ∀ p : MemoryEntity → Bool,
        (∀ row ∈ MemoryRepository.getContextMemories currentTime limit table, p row = false) →
          MemoryRepository.getContextMemories currentTime' limit (MemoryDao.deleteWhere p table) =
            MemoryRepository.getContextMemories currentTime limit table := by
  refine ⟨getContextMemories_time currentTime' currentTime limit table,
    exists_ranking currentTime hlimit table, fun p hlosers => ?_⟩
  rw [getContextMemories_time currentTime' currentTime]
  exact getContextMemories_deleteWhere hlimit hlosers

/-- Of two memories, one is shown. The other one can go, and the next query can come a day later. -/
theorem contextRanking_twoMemories :
    MemoryRepository.getContextMemories 86400000 1
        (MemoryDao.deleteWhere (fun row => row.id == 1) Housekeeping.twoMemories) =
      MemoryRepository.getContextMemories 0 1 Housekeeping.twoMemories :=
  (contextRanking Housekeeping.twoMemories (show (0 : Int) ≤ 1 by decide) 0 86400000).2.2 _
    (by decide +kernel)

end Kaede
