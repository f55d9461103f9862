import Kaede.Data.MemoryDao
import Kaede.Decimal

/-!
# `MemoryRepository`

The calls on the `memories` table. A suspending call reads the clock and builds its arguments when
it is made. The database answers later, in a step of its own.
-/

namespace Kaede

open Infra

namespace MemoryRepository

/-- `getContextMemories(limit)` called at `currentTime`, answered from `table`. -/
def getContextMemoriesBy (score : MemoryDao.ContextScore) (currentTime limit : Int)
    (table : MemoryTable) : List MemoryEntity :=
  MemoryDao.getContextMemoriesBy score currentTime limit table

/-- The same, with exact scores. -/
def getContextMemories (currentTime limit : Int) (table : MemoryTable) : List MemoryEntity :=
  MemoryDao.getContextMemories currentTime limit table

def searchMemories (query : Text) (table : MemoryTable) : List MemoryEntity :=
  MemoryDao.searchMemories query table

/-- The entity that `saveMemory` builds when it is called at time `now`.
The importance is coerced into `0..10`. -/
def memoryToSave (now : Int) (content : Text) (importanceScore : Int) (type : MemoryType)
    (associatedMood : Text) : MemoryEntity :=
  { content := content, importanceScore := max 0 (min importanceScore 10), timestamp := now,
    memoryType := type, associatedMood := associatedMood }

/-- `saveMemory`, once its entity is built. -/
def saveMemory (memory : MemoryEntity) (table : MemoryTable) : MemoryTable :=
  (MemoryDao.insertMemory memory table).2

def saveMemories (memories : List MemoryEntity) (table : MemoryTable) : MemoryTable :=
  (MemoryDao.insertMemories memories table).2

def updateMemory (memory : MemoryEntity) (table : MemoryTable) : MemoryTable :=
  MemoryDao.updateMemory memory table

def deleteMemory (memory : MemoryEntity) (table : MemoryTable) : MemoryTable :=
  MemoryDao.deleteMemory memory table

def deleteMemoryById (id : Int) (table : MemoryTable) : MemoryTable :=
  MemoryDao.deleteMemoryById id table

def markMemoryAsPermanent (id : Int) (table : MemoryTable) : MemoryTable :=
  MemoryDao.markAsPermanent id table

def incrementAccessCount (id : Int) (table : MemoryTable) : MemoryTable :=
  MemoryDao.incrementAccessCount id table

/-- Clears the memories that are not permanent. -/
def clearAllMemories (table : MemoryTable) : MemoryTable :=
  MemoryDao.deleteAllNonPermanent table

/-! ## Cleaning up -/

/-- `System.currentTimeMillis() - (30L * 24 * 60 * 60 * 1000)`, in `Long` arithmetic. -/
def thirtyDaysAgo (now : Int64) : Int64 := now - 30 * 24 * 60 * 60 * 1000

/-- `cleanupOldMemories` with nothing in between. The clock is read at `now`, after the count. -/
def cleanupOldMemories (now : Int64) (sorter : Sorter MemoryEntity.importanceScore)
    (table : MemoryTable) : MemoryTable :=
  let count := MemoryDao.getMemoryCount table
  let table :=
    if 1000 < count then MemoryDao.deleteLowImportanceMemories 2 100 sorter table else table
  MemoryDao.deleteOldMemories (thirtyDaysAgo now).toInt table

/-! ## Export -/

def escapeJson (text : Text) : Text :=
  let text := replaceUnit 0x5C (utf16 "\\\\") text
  let text := replaceUnit 0x22 (utf16 "\\\"") text
  let text := replaceUnit 0x0A (utf16 "\\n") text
  let text := replaceUnit 0x0D (utf16 "\\r") text
  replaceUnit 0x09 (utf16 "\\t") text

/-- The object that is appended for one memory. -/
def exportMemory (memory : MemoryEntity) : Text :=
  utf16 "\x7b\"id\":" ++ intText memory.id ++ utf16 ",\"content\":\"" ++
    escapeJson memory.content ++ utf16 "\",\"importance\":" ++ intText memory.importanceScore ++
    utf16 ",\"type\":\"" ++ memory.memoryType.name ++ utf16 "\"\x7d"

def exportMemoriesToJson (table : MemoryTable) : Text :=
  let memories := MemoryDao.getAllMemoriesNonFlow table
  let (builder, _) := memories.foldl
    (fun (builder, first) memory =>
      ((if first then builder else builder ++ utf16 ",") ++ exportMemory memory, false))
    (utf16 "[", true)
  builder ++ utf16 "]"

end MemoryRepository

end Kaede
