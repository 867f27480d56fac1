import Mathlib.Data.List.Perm.Subperm
import SelectorCatalog.Database.Basic

/-!
# Storing contracts

Storing changes no row that is there and adds one row for every new id, that of the first contract
of this id (`Database.store_eq`). So a list of contracts can be stored in parts
(`Database.store_append`), and storing what is stored already changes nothing
(`Database.store_of_stored`).
-/

set_option autoImplicit false

namespace SelectorCatalog.Database

variable {db : Database} {cs : List Contract}

theorem store_append (db : Database) (as bs : List Contract) :
    db.store (as ++ bs) = (db.store as).store bs := List.foldl_append

theorem store_cons (db : Database) (c : Contract) (cs : List Contract) :
    db.store (c :: cs) = (db.storeOne c).store cs := rfl

theorem storeOne_of_stored {c : Contract} (h : (db.row? c.id).isSome) :
    db.storeOne c = db := if_pos h

theorem isSome_row?_storeOne {c : Contract} {id : String} :
    ((db.storeOne c).row? id).isSome ↔ (db.row? id).isSome ∨ c.id = id := by
  unfold storeOne
  split
  · rename_i stored
    constructor
    · exact .inl
    · rintro (old | rfl)
      · exact old
      · exact stored
  · simp [row?, List.find?_append, ContractRow.ofContract]

theorem row?_storeOne_eq_none {c : Contract} {id : String} :
    (db.storeOne c).row? id = none ↔ db.row? id = none ∧ c.id ≠ id := by
  simp only [← Option.not_isSome_iff_eq_none, isSome_row?_storeOne, not_or, ne_eq]

/-- **Every contract that was stored has a row.** -/
theorem isSome_row?_store {id : String} :
    ((db.store cs).row? id).isSome ↔ (db.row? id).isSome ∨ ∃ c ∈ cs, c.id = id := by
  induction cs generalizing db with
  | nil => simp [store]
  | cons c rest ih =>
    rw [store_cons, ih, isSome_row?_storeOne,
      List.exists_mem_cons_iff, or_assoc]

/-- **Storing what is stored changes nothing.** -/
theorem store_of_stored (h : ∀ c ∈ cs, (db.row? c.id).isSome) : db.store cs = db := by
  induction cs with
  | nil => rfl
  | cons c rest ih =>
    have ⟨first, others⟩ := List.forall_mem_cons.1 h
    rw [store_cons, storeOne_of_stored first]
    exact ih others

theorem store_again (db : Database) {cs part : List Contract} (h : part ⊆ cs) :
    (db.store cs).store part = db.store cs :=
  store_of_stored fun c hc => isSome_row?_store.2 (.inr ⟨c, h hc, rfl⟩)

theorem store_prefix_again (db : Database) (as bs : List Contract) :
    (db.store as).store (as ++ bs) = db.store (as ++ bs) := by
  rw [store_append, store_again db (List.Subset.refl as), ← store_append]

/-- Storing a contract after another one drops it exactly if they have one id, unless its id had a
row before. -/
theorem store_pair_eq_iff {c d : Contract} (fresh : db.row? d.id = none) :
    db.store [c, d] = db.store [c] ↔ c.id = d.id := by
  show (db.storeOne c).storeOne d = db.storeOne c ↔ c.id = d.id
  constructor
  · intro dropped
    have there : ((db.storeOne c).row? d.id).isSome := by
      rw [← dropped]
      exact isSome_row?_storeOne.2 (.inr rfl)
    simpa [fresh] using isSome_row?_storeOne.1 there
  · intro same
    exact storeOne_of_stored (isSome_row?_storeOne.2 (.inr same))

/-! ## The rows that are added -/

/-- The rows of the ids that are new: for each of them one row, of the first contract of the id. -/
structure NewRows (db : Database) (cs : List Contract) (rows : List ContractRow) : Prop where
  distinct : (rows.map ContractRow.id).Nodup
  mem_iff : ∀ row, row ∈ rows ↔
    db.row? row.id = none ∧ ∃ c, cs.find? (fun c => c.id = row.id) = some c ∧
      row = .ofContract db.cast c

theorem newRows_cons_of_stored {c : Contract} {rows : List ContractRow}
    (stored : (db.row? c.id).isSome) (h : db.NewRows cs rows) : db.NewRows (c :: cs) rows := by
  refine ⟨h.distinct, fun row => (h.mem_iff row).trans (and_congr_right fun fresh => ?_)⟩
  have other : c.id ≠ row.id := by
    intro same
    rw [same, fresh] at stored
    cases stored
  rw [List.find?_cons_of_neg (by simpa using other)]

theorem newRows_cons_of_new {c : Contract} {rows : List ContractRow} (fresh : db.row? c.id = none)
    (h : (db.storeOne c).NewRows cs rows) :
    db.NewRows (c :: cs) (.ofContract db.cast c :: rows) := by
  refine ⟨?_, fun row => ?_⟩
  · rw [List.map_cons, List.nodup_cons]
    refine ⟨fun mem => ?_, h.distinct⟩
    obtain ⟨row, hr, same⟩ := List.mem_map.1 mem
    exact (row?_storeOne_eq_none.1 ((h.mem_iff row).1 hr).1).2 same.symm
  · rw [List.mem_cons, h.mem_iff, row?_storeOne_eq_none, cast_storeOne]
    by_cases same : c.id = row.id
    · rw [List.find?_cons_of_pos (by simpa using same)]
      constructor
      · rintro (rfl | ⟨⟨-, other⟩, -⟩)
        · exact ⟨fresh, c, rfl, rfl⟩
        · exact absurd same other
      · rintro ⟨-, d, found, rfl⟩
        cases found
        exact .inl rfl
    · rw [List.find?_cons_of_neg (by simpa using same)]
      constructor
      · rintro (rfl | ⟨⟨absent, -⟩, found⟩)
        · exact absurd rfl same
        · exact ⟨absent, found⟩
      · rintro ⟨absent, found⟩
        exact .inr ⟨⟨absent, same⟩, found⟩

/-- **Storing adds the rows of the new ids and changes nothing else.** -/
theorem store_eq (db : Database) (cs : List Contract) :
    ∃ rows, db.NewRows cs rows ∧ db.store cs = { db with contracts := db.contracts ++ rows } := by
  induction cs generalizing db with
  | nil => exact ⟨[], ⟨List.nodup_nil, by simp⟩, by simp [store]⟩
  | cons c rest ih =>
    obtain ⟨rows, added, stored⟩ := ih (db.storeOne c)
    rw [store_cons, stored]
    by_cases there : (db.row? c.id).isSome
    · rw [storeOne_of_stored there] at added ⊢
      exact ⟨rows, newRows_cons_of_stored there added, rfl⟩
    · refine ⟨_, newRows_cons_of_new (Option.not_isSome_iff_eq_none.1 there) added, ?_⟩
      simp [storeOne, there]

theorem NewRows.length_le {rows : List ContractRow} (h : db.NewRows cs rows) :
    rows.length ≤ cs.length := by
  have ids : rows.map ContractRow.id ⊆ cs.map Contract.id := by
    intro id mem
    obtain ⟨row, hr, rfl⟩ := List.mem_map.1 mem
    obtain ⟨-, c, found, -⟩ := (h.mem_iff row).1 hr
    have same : c.id = row.id := by simpa using List.find?_some found
    exact same ▸ List.mem_map_of_mem (List.mem_of_find?_eq_some found)
  simpa using (h.distinct.subperm ids).length_le

/-! ## How many rows are added -/

theorem length_store (db : Database) (cs : List Contract) :
    (db.store cs).contracts.length = db.contracts.length + db.addedBy cs := by
  obtain ⟨rows, -, stored⟩ := db.store_eq cs
  simp [addedBy, stored]

theorem addedBy_eq_length {rows : List ContractRow}
    (h : db.store cs = { db with contracts := db.contracts ++ rows }) :
    db.addedBy cs = rows.length := by
  simp [addedBy, h]

theorem addedBy_le (db : Database) (cs : List Contract) : db.addedBy cs ≤ cs.length := by
  obtain ⟨rows, added, stored⟩ := db.store_eq cs
  exact addedBy_eq_length stored ▸ added.length_le

theorem addedBy_append (db : Database) (as bs : List Contract) :
    db.addedBy (as ++ bs) = db.addedBy as + (db.store as).addedBy bs := by
  have whole := db.length_store (as ++ bs)
  rw [store_append, length_store, length_store] at whole
  omega

theorem addedBy_again (db : Database) (cs : List Contract) : (db.store cs).addedBy cs = 0 := by
  rw [addedBy, store_again db (List.Subset.refl cs), Nat.sub_self]

end SelectorCatalog.Database
