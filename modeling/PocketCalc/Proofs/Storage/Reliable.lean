import PocketCalc.Proofs.History.Lawful
import PocketCalc.Storage.Memory

/-!
# Stores that work

What the program may expect of a store that nobody else writes to and that refuses no write. Only
the two keys of the program matter, so a store that cannot tell other keys apart may still work.

* `Store.Reliable.load_save`: a history that was saved is loaded again.
* `MemoryStore.reliable`: a store in memory always works.
-/

namespace PocketCalc

/-- The keys that the program uses. -/
def programKeys : List Text := [historyKey, themeKey]

theorem historyKey_mem : historyKey ∈ programKeys := by simp [programKeys]

theorem themeKey_mem : themeKey ∈ programKeys := by simp [programKeys]

theorem themeKey_ne_historyKey : themeKey ≠ historyKey := by decide

namespace Store

/-- Stores of a kind that work: they take every text, give back the one that they took last, change
nothing by answering, and go on working. -/
structure Reliable {σ : Type} [Store σ] (works : σ → Prop) : Prop where
  /-- No write is refused. -/
  write_ok {s : σ} {k : Text} (hs : works s) (hk : k ∈ programKeys) (v : Text) :
    (Store.write s k v).1 = .ok ()
  /-- A store still works after a write. -/
  write_works {s : σ} {k : Text} (hs : works s) (hk : k ∈ programKeys) (v : Text) :
    works (Store.write s k v).2
  /-- A store still works after a read. -/
  read_works {s : σ} {k : Text} (hs : works s) (hk : k ∈ programKeys) : works (Store.read s k).2
  /-- A write is seen under its key and nowhere else. -/
  read_write {s : σ} {k q : Text} (hs : works s) (hk : k ∈ programKeys) (hq : q ∈ programKeys)
    (v : Text) : (Store.read (Store.write s k v).2 q).1 =
      if q = k then .ok (some v) else (Store.read s q).1
  /-- A read is not seen. -/
  read_read {s : σ} {k q : Text} (hs : works s) (hk : k ∈ programKeys) (hq : q ∈ programKeys) :
    (Store.read (Store.read s k).2 q).1 = (Store.read s q).1

namespace Reliable

variable [HistoryFormat] {σ : Type} [Store σ] {works : σ → Prop} (hr : Reliable works) {s : σ}
  (hs : works s)
include hr hs

theorem load_save [HistoryFormat.ReadsBack] (h : History) : (History.load (h.save s).2).1 = h := by
  show History.ofAnswer (Store.read (Store.write s historyKey h.toJson).2 historyKey).1 = h
  rw [hr.read_write hs historyKey_mem historyKey_mem, if_pos rfl]
  exact History.ofJson_toJson h

/-- Loading leaves the history where it is. -/
theorem load_load : (History.load (History.load s).2).1 = (History.load s).1 :=
  congrArg History.ofAnswer (hr.read_read hs historyKey_mem historyKey_mem)

end Reliable

end Store

theorem MemoryStore.reliable : Store.Reliable fun _ : MemoryStore => True where
  write_ok _ _ _ := rfl
  write_works _ _ _ := trivial
  read_works _ _ := trivial
  read_write _ _ _ v := MemoryStore.read_write _ _ v _
  read_read _ _ _ := rfl

end PocketCalc
