import InvoiceOps.ErpTables
import InvoiceOps.Exclusive
import Mathlib.Data.List.Nodup
import Mathlib.Data.List.Perm.Subperm

/-!
# ERP seeding

`seed_fixture` and `seed_golden_fixture` insert a fixture in the caller's transaction, under one
advisory lock, or find it there. They count the fixture's ids in each table and compare every row
they find with its record, so on any database they create everything, change nothing or raise,
and once one of them has ended well every later call for the fixture finds it unchanged
(`erp_seed_all_or_nothing`).
-/

set_option linter.unusedSectionVars false

namespace InvoiceOps

open Shared ReadCommitted

/-- An `ERPSeedConflict`, a validation error, or an error of the database. -/
inductive SeedError where
  | conflict (message : String)
  | validation
  | sql (e : SqlError)
  deriving DecidableEq, Repr

instance : OfSql SeedError :=
  ⟨.sql⟩

/-- Whether a seeding wrote anything. -/
inductive SeedOutcome where
  | created | unchanged
  deriving DecidableEq, Repr

/-- An `ERPFixture` or a `GoldenERPSeed`. -/
structure ErpFixture where
  vendors : List Vendor
  purchaseOrders : List PurchaseOrder
  goodsReceipts : List GoodsReceipt

/-! ## The rows of one table -/

/-- A table, and the model its rows are validated as. -/
structure SeedTable (Db Record Row : Type) where
  name : String
  rows : Db → List Row
  rowId : Row → Uuid
  recordId : Record → Uuid
  validate : Row → Option Record
  same : Record → Record → Bool

namespace SeedTable

variable {Db W Record Row : Type} (T : SeedTable Db Record Row)

/-- `SELECT ... WHERE id = ANY(ids)`. -/
def select (expected : List Record) (d : Db) : List Row :=
  (T.rows d).filter fun row => T.rowId row ∈ expected.map T.recordId

/-- Every row that was found has to validate to its record. -/
def check (rows : List Row) : List Record → Except SeedError Unit
  | [] => .ok ()
  | record :: records =>
    match lookup T.rowId rows (T.recordId record) with
    | none => check rows records
    | some row =>
      match T.validate row with
      | none => .error .validation
      | some read =>
        if T.same read record then check rows records
        else .error (.conflict ("Existing " ++ T.name ++ " row differs from the synthetic fixture"))

/-- `_existing_count`. -/
def existingCount (expected : List Record) : Txn Db W SeedError ℕ :=
  if expected = [] then pure 0
  else do
    let rows ← Txn.read (T.select expected)
    Txn.ofExcept (T.check rows expected)
    return rows.length

/-- The row validates to exactly the record. -/
def Matches (row : Row) (record : Record) : Prop :=
  ∃ read, T.validate row = some read ∧ T.same read record

/-- Every record has a row, and the row is exactly it. -/
def Stored (expected : List Record) (d : Db) : Prop :=
  ∀ record ∈ expected, ∃ row ∈ T.rows d, T.rowId row = T.recordId record ∧ T.Matches row record

/-- No record has a row. -/
def Absent (expected : List Record) (d : Db) : Prop :=
  ∀ record ∈ expected, ∀ row ∈ T.rows d, T.rowId row ≠ T.recordId record

/-- What `_existing_count` answers on one database. -/
def count (expected : List Record) (d : Db) : Except SeedError ℕ :=
  (T.check (T.select expected d) expected).map fun _ => (T.select expected d).length

variable {T} {expected : List Record} {d d' : Db}

/-- A count reads the store and writes nothing. -/
theorem existingCount_on (S : Schema Db W Unit) :
    (T.existingCount expected : Txn Db W SeedError ℕ).on S d =
      (T.count expected d).map fun n => (n, []) := by
  unfold existingCount
  split_ifs with hempty
  · subst hempty
    simp [count, select, check, Except.map]
  · rw [Txn.on_bind_ok (Txn.on_read S _ d), Txn.on_bind, Txn.on_ofExcept, count]
    cases T.check (T.select expected d) expected <;> rfl

/-- The rows that are there match the records. -/
theorem check_eq_ok {rows : List Row} : T.check rows expected = .ok () ↔
    ∀ record ∈ expected, ∀ row, lookup T.rowId rows (T.recordId record) = some row →
      T.Matches row record := by
  induction expected with
  | nil => simp [check]
  | cons record records ih =>
    simp only [check, List.forall_mem_cons]
    cases lookup T.rowId rows (T.recordId record) with
    | none => simp [ih]
    | some row =>
      cases hread : T.validate row with
      | none => simp [Matches, hread]
      | some read => cases heq : T.same read record <;> simp [Matches, hread, heq, ih]

/-- The rows that a table selects are those of the records. -/
theorem mem_select {row : Row} :
    row ∈ T.select expected d ↔ row ∈ T.rows d ∧
      ∃ record ∈ expected, T.recordId record = T.rowId row := by
  simp [select]

/-- A count is of rows that match. -/
theorem count_eq_ok {n : ℕ} : T.count expected d = .ok n ↔
    T.check (T.select expected d) expected = .ok () ∧ (T.select expected d).length = n := by
  unfold count
  cases T.check (T.select expected d) expected <;> simp [Except.map]

/-- No row is counted just when no record is there. -/
theorem count_eq_zero : T.count expected d = .ok 0 ↔ T.Absent expected d := by
  have hempty : T.select expected d = [] ↔ T.Absent expected d := by
    rw [List.eq_nil_iff_forall_not_mem]
    constructor
    · exact fun h record hmem row hrow heq => h row (mem_select.mpr ⟨hrow, record, hmem, heq.symm⟩)
    · rintro h row hrow
      obtain ⟨hrow, record, hmem, heq⟩ := mem_select.mp hrow
      exact h record hmem row hrow heq.symm
  rw [count_eq_ok, List.length_eq_zero_iff, hempty, and_iff_right_iff_imp]
  intro h
  rw [hempty.mpr h, check_eq_ok]
  simp [lookup]

/-- With unique ids on both sides as many rows as records are found just if each has one. -/
theorem count_eq_length (hrows : ((T.rows d).map T.rowId).Nodup)
    (hids : (expected.map T.recordId).Nodup) :
    T.count expected d = .ok expected.length ↔ T.Stored expected d := by
  have hselected : ((T.select expected d).map T.rowId).Nodup :=
    hrows.sublist (List.filter_sublist.map _)
  have hsub : (T.select expected d).map T.rowId ⊆ expected.map T.recordId := by
    intro id hid
    obtain ⟨row, hrow, rfl⟩ := List.mem_map.mp hid
    obtain ⟨-, record, hmem, heq⟩ := mem_select.mp hrow
    exact List.mem_map.mpr ⟨record, hmem, heq⟩
  rw [count_eq_ok, check_eq_ok]
  constructor
  · rintro ⟨hmatch, hlength⟩ record hmem
    have hperm : ((T.select expected d).map T.rowId).Perm (expected.map T.recordId) :=
      (hselected.subperm hsub).perm_of_length_le (by simp [hlength])
    obtain ⟨row, hrow, heq⟩ :=
      List.mem_map.mp (hperm.symm.subset (List.mem_map_of_mem hmem))
    have hlookup := lookup_of_mem hselected hrow
    rw [heq] at hlookup
    exact ⟨row, (mem_select.mp hrow).1, heq, hmatch record hmem row hlookup⟩
  · intro h
    refine ⟨fun record hmem row hrow => ?_, ?_⟩
    · obtain ⟨row', hrow', heq, hmatch⟩ := h record hmem
      have hid := key_of_lookup hrow
      have hmem' := (mem_select.mp (mem_of_lookup hrow)).1
      rwa [List.inj_on_of_nodup_map hrows hmem' hrow' (hid.trans heq.symm)]
    · have hsup : expected.map T.recordId ⊆ (T.select expected d).map T.rowId := by
        intro id hid
        obtain ⟨record, hmem, rfl⟩ := List.mem_map.mp hid
        obtain ⟨row, hrow, heq, -⟩ := h record hmem
        exact List.mem_map.mpr ⟨row, mem_select.mpr ⟨hrow, record, hmem, heq.symm⟩, heq⟩
      have hle := (hselected.subperm hsub).length_le
      have hge := (hids.subperm hsup).length_le
      rw [List.length_map, List.length_map] at hle hge
      exact le_antisymm hle hge

/-- Rows that stay keep the records stored. -/
theorem Stored.mono (h : T.Stored expected d) (hrows : ∀ row ∈ T.rows d, row ∈ T.rows d') :
    T.Stored expected d' := by
  intro record hmem
  obtain ⟨row, hrow, hstored⟩ := h record hmem
  exact ⟨row, hrows row hrow, hstored⟩

end SeedTable

/-! ## The program -/

/-- A record of one of the three tables. -/
inductive ErpRecord where
  | vendor (record : Vendor)
  | purchaseOrder (record : PurchaseOrder)
  | goodsReceipt (record : GoodsReceipt)

section

variable {J : Type} (host : ErpHost J)

/-- `vendors`, as it is seeded. -/
def vendorsTable : SeedTable (ErpDb J) Vendor VendorRow where
  name := "vendors"
  rows := ErpDb.vendors
  rowId := VendorRow.id
  recordId := Vendor.id
  validate := VendorRow.validate host
  same := Vendor.same

/-- `purchase_orders`, as it is seeded. -/
def purchaseOrdersTable : SeedTable (ErpDb J) PurchaseOrder (PurchaseOrderRow J) where
  name := "purchase_orders"
  rows := ErpDb.purchaseOrders
  rowId := PurchaseOrderRow.id
  recordId := PurchaseOrder.id
  validate := PurchaseOrderRow.validate host
  same := PurchaseOrder.same

/-- `goods_receipts`, as it is seeded. -/
def goodsReceiptsTable : SeedTable (ErpDb J) GoodsReceipt (GoodsReceiptRow J) where
  name := "goods_receipts"
  rows := ErpDb.goodsReceipts
  rowId := GoodsReceiptRow.id
  recordId := GoodsReceipt.id
  validate := GoodsReceiptRow.validate host
  same := GoodsReceipt.same

/-- `_fixture_counts`. -/
def fixtureCounts (f : ErpFixture) : Txn (ErpDb J) (ErpWrite J) SeedError (ℕ × ℕ × ℕ) := do
  let vendors ← (vendorsTable host).existingCount f.vendors
  let purchaseOrders ← (purchaseOrdersTable host).existingCount f.purchaseOrders
  let goodsReceipts ← (goodsReceiptsTable host).existingCount f.goodsReceipts
  return (vendors, purchaseOrders, goodsReceipts)

/-- How many records a fixture has. -/
def ErpFixture.counts (f : ErpFixture) : ℕ × ℕ × ℕ :=
  (f.vendors.length, f.purchaseOrders.length, f.goodsReceipts.length)

/-- The records `_insert_fixture` inserts, in its order. -/
def ErpFixture.records (f : ErpFixture) (includeVendors : Bool) : List ErpRecord :=
  (if includeVendors then f.vendors.map .vendor else []) ++
    f.purchaseOrders.map .purchaseOrder ++ f.goodsReceipts.map .goodsReceipt

/-- The row of a record. -/
def ErpRecord.write : ErpRecord → ErpWrite J
  | vendor record => .vendor record.row
  | purchaseOrder record => .purchaseOrder (record.row host)
  | goodsReceipt record => .goodsReceipt (record.row host)

/-- What the insert of the record breaks : its lines have to be taken as `jsonb`, and the row by
its table. -/
def ErpRecord.conflict (record : ErpRecord) (d : ErpDb J) : Option String :=
  let taken :=
    match record with
    | vendor _ => true
    | purchaseOrder record => host.takes (OrderLines.codec.dump record.lines)
    | goodsReceipt record => host.takes (ReceiptLines.codec.dump record.lines)
  if taken then d.conflict (record.write host) else some "jsonb"

/-- The inserts of some records, in order. -/
def insertRecords : List ErpRecord → Txn (ErpDb J) (ErpWrite J) SeedError Unit
  | [] => pure ()
  | record :: records => do
    Txn.insert (record.conflict host) (record.write host)
    insertRecords records

/-- `_insert_fixture`. -/
def insertFixture (f : ErpFixture) (includeVendors : Bool) :
    Txn (ErpDb J) (ErpWrite J) SeedError Unit :=
  insertRecords host (f.records includeVendors)

/-- `seed_fixture`, under its lock. -/
def seedFixture (f : ErpFixture) : Txn (ErpDb J) (ErpWrite J) SeedError SeedOutcome := do
  let counts ← fixtureCounts host f
  if counts = f.counts then return .unchanged
  else if counts ≠ (0, 0, 0) then
    throw (.conflict "Existing synthetic ERP fixture is incomplete")
  else do
    insertFixture host f true
    return .created

/-- `seed_golden_fixture`, under its lock. -/
def seedGoldenFixture (f : ErpFixture) : Txn (ErpDb J) (ErpWrite J) SeedError SeedOutcome := do
  let counts ← fixtureCounts host f
  if counts = f.counts then return .unchanged
  else if counts ∉ [(0, 0, 0), (f.vendors.length, 0, 0)] then
    throw (.conflict "Existing golden ERP fixture is incomplete")
  else do
    insertFixture host f (counts.1 = 0)
    return .created

/-- The lock of the seeding is its transaction's, and every write of it stands under it. -/
def erpSchema : Schema (ErpDb J) (ErpWrite J) Unit :=
  ⟨ErpDb.apply, fun _ => false⟩

/-- Every write stands under the one lock. -/
def erpDiscipline : Discipline (ErpWrite J) Unit :=
  ⟨fun _ => [()]⟩

/-! ## What is stored -/

namespace ErpFixture

variable (f : ErpFixture) (d : ErpDb J)

/-- The ids of a table's records are distinct. -/
structure Distinct : Prop where
  vendors : (f.vendors.map Vendor.id).Nodup
  purchaseOrders : (f.purchaseOrders.map PurchaseOrder.id).Nodup
  goodsReceipts : (f.goodsReceipts.map GoodsReceipt.id).Nodup

/-- Every record has a row that validates to exactly it. -/
structure AllStored : Prop where
  vendors : (vendorsTable host).Stored f.vendors d
  purchaseOrders : (purchaseOrdersTable host).Stored f.purchaseOrders d
  goodsReceipts : (goodsReceiptsTable host).Stored f.goodsReceipts d

/-- None of the ids has a row. -/
structure NoneExist : Prop where
  vendors : (vendorsTable host).Absent f.vendors d
  purchaseOrders : (purchaseOrdersTable host).Absent f.purchaseOrders d
  goodsReceipts : (goodsReceiptsTable host).Absent f.goodsReceipts d

/-- The vendors have rows that validate to exactly them, and no other id has a row. -/
structure OnlyVendorsStored : Prop where
  vendors : (vendorsTable host).Stored f.vendors d
  purchaseOrders : (purchaseOrdersTable host).Absent f.purchaseOrders d
  goodsReceipts : (goodsReceiptsTable host).Absent f.goodsReceipts d

/-- What `_fixture_counts` answers on one database. -/
def countsOn : Except SeedError (ℕ × ℕ × ℕ) := do
  let vendors ← (vendorsTable host).count f.vendors d
  let purchaseOrders ← (purchaseOrdersTable host).count f.purchaseOrders d
  let goodsReceipts ← (goodsReceiptsTable host).count f.goodsReceipts d
  return (vendors, purchaseOrders, goodsReceipts)

variable {f d}

/-- The three counts of a fixture. -/
theorem countsOn_eq_ok {v o r : ℕ} : f.countsOn host d = .ok (v, o, r) ↔
    (vendorsTable host).count f.vendors d = .ok v ∧
      (purchaseOrdersTable host).count f.purchaseOrders d = .ok o ∧
      (goodsReceiptsTable host).count f.goodsReceipts d = .ok r := by
  unfold countsOn
  cases (vendorsTable host).count f.vendors d with
  | error e => simp [bind, Except.bind]
  | ok v' =>
    cases (purchaseOrdersTable host).count f.purchaseOrders d with
    | error e => simp [bind, Except.bind]
    | ok o' =>
      cases (goodsReceiptsTable host).count f.goodsReceipts d with
      | error e => simp [bind, Except.bind]
      | ok r' => simp [bind, Except.bind, pure, Except.pure]

/-- All are counted just when all is stored. -/
theorem countsOn_full (hf : f.Distinct) (hd : d.Keyed) :
    f.countsOn host d = .ok f.counts ↔ f.AllStored host d := by
  rw [counts, countsOn_eq_ok, SeedTable.count_eq_length hd.vendors hf.vendors,
    SeedTable.count_eq_length hd.purchaseOrders hf.purchaseOrders,
    SeedTable.count_eq_length hd.goodsReceipts hf.goodsReceipts]
  exact ⟨fun h => ⟨h.1, h.2.1, h.2.2⟩, fun h => ⟨h.1, h.2, h.3⟩⟩

/-- None is counted just when none is there. -/
theorem countsOn_zero : f.countsOn host d = .ok (0, 0, 0) ↔ f.NoneExist host d := by
  rw [countsOn_eq_ok, SeedTable.count_eq_zero, SeedTable.count_eq_zero, SeedTable.count_eq_zero]
  exact ⟨fun h => ⟨h.1, h.2.1, h.2.2⟩, fun h => ⟨h.1, h.2, h.3⟩⟩

/-- Only the vendors are counted just when they alone are stored. -/
theorem countsOn_vendors (hf : f.Distinct) (hd : d.Keyed) :
    f.countsOn host d = .ok (f.vendors.length, 0, 0) ↔ f.OnlyVendorsStored host d := by
  rw [countsOn_eq_ok, SeedTable.count_eq_length hd.vendors hf.vendors, SeedTable.count_eq_zero,
    SeedTable.count_eq_zero]
  exact ⟨fun h => ⟨h.1, h.2.1, h.2.2⟩, fun h => ⟨h.1, h.2, h.3⟩⟩

/-- The counts write nothing. -/
theorem fixtureCounts_on :
    (fixtureCounts host f).on erpSchema d = (f.countsOn host d).map fun counts => (counts, []) := by
  unfold fixtureCounts countsOn
  cases hv : (vendorsTable host).count f.vendors d with
  | error e => exact Txn.on_bind_error (by rw [SeedTable.existingCount_on, hv]; rfl)
  | ok v =>
    rw [Txn.on_bind_ok (by rw [SeedTable.existingCount_on, hv]; rfl)]
    cases ho : (purchaseOrdersTable host).count f.purchaseOrders d with
    | error e => exact Txn.on_bind_error (by rw [SeedTable.existingCount_on, ho]; rfl)
    | ok o =>
      rw [Txn.on_bind_ok (by rw [SeedTable.existingCount_on, ho]; rfl)]
      cases hr : (goodsReceiptsTable host).count f.goodsReceipts d with
      | error e => exact Txn.on_bind_error (by rw [SeedTable.existingCount_on, hr]; rfl)
      | ok r =>
        rw [Txn.on_bind_ok (by rw [SeedTable.existingCount_on, hr]; rfl)]
        rfl

end ErpFixture

/-- The inserts break nothing, one after the other. -/
def Accepts (d : ErpDb J) : List ErpRecord → Prop
  | [] => True
  | record :: records =>
    record.conflict host d = none ∧ Accepts (d.apply (record.write host)) records

/-- Records are inserted just when each is accepted where it comes. -/
theorem insertRecords_on {records : List ErpRecord} : ∀ {d : ErpDb J} {ws : List (ErpWrite J)},
    (insertRecords host records).on erpSchema d = .ok ((), ws) ↔
      Accepts host d records ∧ ws = records.map (ErpRecord.write host) := by
  induction records with
  | nil =>
    intro d ws
    simp [insertRecords, Accepts, eq_comm]
  | cons record records ih =>
    intro d ws
    rw [insertRecords, Txn.on_bind, Txn.on_insert, Accepts]
    cases record.conflict host d with
    | some name => simp
    | none =>
      have happly : erpSchema.applyAll d [record.write host] = d.apply (record.write host) := rfl
      simp only [happly, true_and, List.map_cons, List.cons_append, List.nil_append]
      cases hrest : (insertRecords host records).on erpSchema (d.apply (record.write host)) with
      | error e =>
        have hnot : ¬Accepts host (d.apply (record.write host)) records := fun h => by
          have := ih.mpr ⟨h, rfl⟩
          rw [hrest] at this
          cases this
        simp [Except.map, hnot]
      | ok out =>
        obtain ⟨hacc, hws⟩ := ih.mp hrest
        simp [Except.map, hacc, hws, eq_comm]

/-- A fixture is inserted just when its records are. -/
theorem insertFixture_on {f : ErpFixture} {d : ErpDb J} {includeVendors : Bool}
    {outcome : SeedOutcome} {ws : List (ErpWrite J)} :
    (do
      insertFixture host f includeVendors
      return SeedOutcome.created :
      Txn (ErpDb J) (ErpWrite J) SeedError SeedOutcome).on erpSchema d = .ok (outcome, ws) ↔
      outcome = .created ∧ Accepts host d (f.records includeVendors) ∧
        ws = (f.records includeVendors).map (ErpRecord.write host) := by
  rw [Txn.on_bind, insertFixture]
  cases hins : (insertRecords host (f.records includeVendors)).on erpSchema d with
  | error e =>
    have hnot : ¬Accepts host d (f.records includeVendors) := fun h => by
      have := (insertRecords_on host).mpr ⟨h, rfl⟩
      rw [hins] at this
      cases this
    simp [hnot]
  | ok out =>
    obtain ⟨hacc, hws⟩ := (insertRecords_on host).mp hins
    simp [Except.map, hacc, hws, eq_comm]

section

variable {host} {f : ErpFixture} {d : ErpDb J} {ws : List (ErpWrite J)}

/-- What goes on from the counts. -/
theorem fixtureCounts_bind_on
    {rest : ℕ × ℕ × ℕ → Txn (ErpDb J) (ErpWrite J) SeedError SeedOutcome} :
    (fixtureCounts host f >>= rest).on erpSchema d =
      match f.countsOn host d with
      | .error e => .error e
      | .ok counts => (rest counts).on erpSchema d := by
  have hcounts := ErpFixture.fixtureCounts_on host (f := f) (d := d)
  cases hc : f.countsOn host d with
  | error e => exact Txn.on_bind_error (by rw [hcounts, hc]; rfl)
  | ok counts => exact Txn.on_bind_ok (by rw [hcounts, hc]; rfl)

/-- A seeding that creates writes every record, where there was none. -/
theorem seedFixture_created : (seedFixture host f).on erpSchema d = .ok (.created, ws) ↔
    f.NoneExist host d ∧ f.counts ≠ (0, 0, 0) ∧ Accepts host d (f.records true) ∧
      ws = (f.records true).map (ErpRecord.write host) := by
  rw [seedFixture, fixtureCounts_bind_on, ← ErpFixture.countsOn_zero]
  cases f.countsOn host d with
  | error e => simp
  | ok counts =>
    dsimp only
    split_ifs with hfull hzero
    · subst hfull
      simp only [Txn.on_pure, Except.ok.injEq, Prod.mk.injEq, reduceCtorEq, false_and, false_iff]
      exact fun h => h.2.1 h.1
    · simp [hzero]
    · rw [not_not] at hzero
      subst hzero
      rw [insertFixture_on]
      simp [Ne.symm hfull]

/-- A seeding that changes nothing finds everything stored. -/
theorem seedFixture_unchanged (hf : f.Distinct) (hd : d.Keyed) :
    (seedFixture host f).on erpSchema d = .ok (.unchanged, ws) ↔ f.AllStored host d ∧ ws = [] := by
  rw [seedFixture, fixtureCounts_bind_on, ← ErpFixture.countsOn_full host hf hd]
  cases f.countsOn host d with
  | error e => simp
  | ok counts =>
    dsimp only
    split_ifs with hfull hzero
    · simp [hfull, eq_comm]
    · simp [hfull]
    · rw [insertFixture_on]
      simp [hfull]

/-- A golden seeding that creates writes all that the vendors do not have yet. -/
theorem seedGoldenFixture_created (hf : f.Distinct) (hd : d.Keyed) :
    (seedGoldenFixture host f).on erpSchema d = .ok (.created, ws) ↔
      (f.NoneExist host d ∧ f.counts ≠ (0, 0, 0) ∧ Accepts host d (f.records true) ∧
        ws = (f.records true).map (ErpRecord.write host)) ∨
      (f.OnlyVendorsStored host d ∧ f.vendors ≠ [] ∧ f.counts ≠ (f.vendors.length, 0, 0) ∧
        Accepts host d (f.records false) ∧
        ws = (f.records false).map (ErpRecord.write host)) := by
  rw [seedGoldenFixture, fixtureCounts_bind_on, ← ErpFixture.countsOn_zero,
    ← ErpFixture.countsOn_vendors host hf hd]
  cases f.countsOn host d with
  | error e => simp
  | ok counts =>
    dsimp only
    split_ifs with hfull hknown
    · subst hfull
      simp only [Txn.on_pure, Except.ok.injEq, Prod.mk.injEq, reduceCtorEq, false_and, false_iff]
      rintro (h | h)
      · exact h.2.1 h.1
      · exact h.2.2.1 h.1
    · rw [insertFixture_on]
      by_cases hzero : counts = (0, 0, 0)
      · subst hzero
        simp only [Ne.symm hfull, ne_eq, not_false_eq_true, true_and, decide_true, Except.ok.injEq,
          Prod.mk.injEq, and_true]
        refine ⟨Or.inl, fun h => h.resolve_right fun h => h.2.1 ?_⟩
        exact List.length_eq_zero_iff.mp h.1.symm
      · have hvendors : counts = (f.vendors.length, 0, 0) := by simpa [hzero] using hknown
        subst hvendors
        have hne : f.vendors ≠ [] := fun h => hzero (by simp [h])
        simp [Ne.symm hfull, hne]
    · simp only [List.mem_cons, List.not_mem_nil, or_false, not_or] at hknown
      simp [hknown.1, hknown.2]

/-- A golden seeding that changes nothing finds everything stored. -/
theorem seedGoldenFixture_unchanged (hf : f.Distinct) (hd : d.Keyed) :
    (seedGoldenFixture host f).on erpSchema d = .ok (.unchanged, ws) ↔
      f.AllStored host d ∧ ws = [] := by
  rw [seedGoldenFixture, fixtureCounts_bind_on, ← ErpFixture.countsOn_full host hf hd]
  cases f.countsOn host d with
  | error e => simp
  | ok counts =>
    dsimp only
    split_ifs with hfull hknown
    · simp [hfull, eq_comm]
    · rw [insertFixture_on]
      simp [hfull]
    · simp [hfull]

/-! ## What stays stored -/

/-- What is stored stays stored. -/
theorem ErpFixture.AllStored.apply (h : f.AllStored host d) (w : ErpWrite J) :
    f.AllStored host (d.apply w) := by
  refine ⟨h.vendors.mono fun row hrow => ?_, h.purchaseOrders.mono fun row hrow => ?_,
    h.goodsReceipts.mono fun row hrow => ?_⟩ <;> cases w <;>
    first | exact hrow | exact List.mem_append_left _ hrow

/-- The rows of a table, with those that are written. -/
theorem rows_applyAll (d : ErpDb J) (ws : List (ErpWrite J)) :
    (∀ row, row ∈ (erpSchema.applyAll d ws).vendors ↔ row ∈ d.vendors ∨ .vendor row ∈ ws) ∧
    (∀ row, row ∈ (erpSchema.applyAll d ws).purchaseOrders ↔
      row ∈ d.purchaseOrders ∨ .purchaseOrder row ∈ ws) ∧
    ∀ row, row ∈ (erpSchema.applyAll d ws).goodsReceipts ↔
      row ∈ d.goodsReceipts ∨ .goodsReceipt row ∈ ws := by
  induction ws generalizing d with
  | nil => simp
  | cons w ws ih =>
    obtain ⟨hv, ho, hr⟩ := ih (d.apply w)
    refine ⟨fun row => ?_, fun row => ?_, fun row => ?_⟩
    · rw [Schema.applyAll_cons]
      refine (hv row).trans ?_
      cases w <;> simp [ErpDb.apply, or_assoc]
    · refine (ho row).trans ?_
      cases w <;> simp [ErpDb.apply, or_assoc]
    · refine (hr row).trans ?_
      cases w <;> simp [ErpDb.apply, or_assoc]

/-- A record that is accepted conflicts with nothing where it comes. -/
theorem Accepts.conflict : ∀ {records : List ErpRecord} {d : ErpDb J}, Accepts host d records →
    ∀ record ∈ records, ∃ d', record.conflict host d' = none
  | [], _, _, _, hmem => by cases hmem
  | _ :: _, d, h, record, hmem => by
    rcases List.mem_cons.mp hmem with rfl | hmem
    · exact ⟨d, h.1⟩
    · exact h.2.conflict record hmem

/-- What is accepted keeps the keys distinct. -/
theorem Accepts.keyed : ∀ {records : List ErpRecord} {d : ErpDb J}, Accepts host d records →
    d.Keyed → (erpSchema.applyAll d (records.map (ErpRecord.write host))).Keyed
  | [], _, _, hd => hd
  | record :: _, d, h, hd => by
    have hrow : d.conflict (record.write host) = none := by
      have hconflict := h.1
      simp only [ErpRecord.conflict] at hconflict
      split_ifs at hconflict
      exact hconflict
    have hrest := h.2.keyed (hd.apply hrow)
    exact hrest

/-- What was inserted is stored. -/
theorem stored_of_accepts {includeVendors : Bool}
    (hacc : Accepts host d (f.records includeVendors))
    (hv : includeVendors = false → (vendorsTable host).Stored f.vendors d) :
    f.AllStored host
      (erpSchema.applyAll d ((f.records includeVendors).map (ErpRecord.write host))) := by
  obtain ⟨hvendors, horders, hreceipts⟩ :=
    rows_applyAll d ((f.records includeVendors).map (ErpRecord.write host))
  refine ⟨?_, fun order hmem => ?_, fun receipt hmem => ?_⟩
  · cases includeVendors with
    | false => exact (hv rfl).mono fun row hrow => (hvendors row).mpr (Or.inl hrow)
    | true =>
      intro vendor hmem
      refine ⟨vendor.row, (hvendors _).mpr (Or.inr ?_), rfl, vendor.validate_row host⟩
      exact List.mem_map.mpr ⟨.vendor vendor, by simp [ErpFixture.records, hmem], rfl⟩
  · have hrecord : ErpRecord.purchaseOrder order ∈ f.records includeVendors := by
      simp [ErpFixture.records, hmem]
    obtain ⟨d', hnone⟩ := hacc.conflict _ hrecord
    have htakes : host.takes (OrderLines.codec.dump order.lines) := by
      by_contra h
      simp [ErpRecord.conflict, h] at hnone
    exact ⟨order.row host, (horders _).mpr (Or.inr (List.mem_map.mpr ⟨_, hrecord, rfl⟩)), rfl,
      order.validate_row host htakes⟩
  · have hrecord : ErpRecord.goodsReceipt receipt ∈ f.records includeVendors := by
      simp [ErpFixture.records, hmem]
    obtain ⟨d', hnone⟩ := hacc.conflict _ hrecord
    have htakes : host.takes (ReceiptLines.codec.dump receipt.lines) := by
      by_contra h
      simp [ErpRecord.conflict, h] at hnone
    exact ⟨receipt.row host, (hreceipts _).mpr (Or.inr (List.mem_map.mpr ⟨_, hrecord, rfl⟩)), rfl,
      receipt.validate_row host htakes⟩

end

/-! ## Any number of seedings -/

/-- A call of the seeder : the base seed, or the golden one. -/
inductive SeedCall where
  | base (fixture : ErpFixture)
  | golden (fixture : ErpFixture)

namespace SeedCall

/-- What a call seeds. -/
def fixture : SeedCall → ErpFixture
  | base f | golden f => f

/-- The transaction of a call. -/
def body : SeedCall → Txn (ErpDb J) (ErpWrite J) SeedError SeedOutcome
  | base f => seedFixture host f
  | golden f => seedGoldenFixture host f

variable {host} {call : SeedCall} {d : ErpDb J} {outcome : SeedOutcome} {ws : List (ErpWrite J)}

/-- Either seeding changes nothing just when everything is stored. -/
theorem body_unchanged (hf : call.fixture.Distinct) (hd : d.Keyed) :
    (call.body host).on erpSchema d = .ok (.unchanged, ws) ↔
      call.fixture.AllStored host d ∧ ws = [] := by
  cases call with
  | base f => exact seedFixture_unchanged hf hd
  | golden f => exact seedGoldenFixture_unchanged hf hd

/-- What a seeding writes are inserts that break nothing. -/
theorem body_accepts (h : (call.body host).on erpSchema d = .ok (outcome, ws)) :
    ∃ records, Accepts host d records ∧ ws = records.map (ErpRecord.write host) := by
  cases call with
  | base f =>
    rw [body, seedFixture, fixtureCounts_bind_on] at h
    cases hc : f.countsOn host d with
    | error e => simp [hc] at h
    | ok counts =>
      simp only [hc] at h
      split_ifs at h
      · cases h
        exact ⟨[], trivial, rfl⟩
      · cases h
      · obtain ⟨-, hacc, hws⟩ := (insertFixture_on host).mp h
        exact ⟨_, hacc, hws⟩
  | golden f =>
    rw [body, seedGoldenFixture, fixtureCounts_bind_on] at h
    cases hc : f.countsOn host d with
    | error e => simp [hc] at h
    | ok counts =>
      simp only [hc] at h
      split_ifs at h
      · cases h
        exact ⟨[], trivial, rfl⟩
      · obtain ⟨-, hacc, hws⟩ := (insertFixture_on host).mp h
        exact ⟨_, hacc, hws⟩
      · cases h

/-- Either seeding keeps the keys distinct. -/
theorem body_keyed (hd : d.Keyed) (h : (call.body host).on erpSchema d = .ok (outcome, ws)) :
    (erpSchema.applyAll d ws).Keyed := by
  obtain ⟨records, hacc, rfl⟩ := body_accepts h
  exact hacc.keyed hd

/-- A seeding that completes leaves its fixture stored. -/
theorem body_stored (hf : call.fixture.Distinct) (hd : d.Keyed)
    (h : (call.body host).on erpSchema d = .ok (outcome, ws)) :
    call.fixture.AllStored host (erpSchema.applyAll d ws) := by
  cases outcome with
  | unchanged =>
    obtain ⟨hstored, rfl⟩ := (body_unchanged hf hd).mp h
    exact hstored
  | created =>
    cases call with
    | base f =>
      obtain ⟨-, -, hacc, rfl⟩ := seedFixture_created.mp h
      exact stored_of_accepts hacc nofun
    | golden f =>
      rcases (seedGoldenFixture_created hf hd).mp h with ⟨-, -, hacc, rfl⟩ | ⟨hv, -, -, hacc, rfl⟩
      · exact stored_of_accepts hacc nofun
      · exact stored_of_accepts hacc fun _ => hv.vendors

end SeedCall

/-- Callers of both functions, each in a transaction of its own. -/
def seeders (ι A : Type) [DecidableEq ι] :
    System ι (Server ι (ErpDb J) (ErpWrite J) Unit) A SeedError SeedOutcome SeedCall :=
  exclusiveCalls erpSchema () (SeedCall.body host)

/-- Seedings under their lock are serial, whatever their interleaving. -/
theorem seeders_verified {ι A : Type} [DecidableEq ι] :
    (seeders host ι A).Verified (protocol erpSchema erpDiscipline ErpDb.Keyed)
      fun call i entry out g => Serial erpSchema ErpDb.Keyed (call.body host)
        (entry.session i).wrote entry.db out (g.session i).wrote g.db :=
  exclusive_verified (fun _ => rfl) rfl fun _ _ _ _ hd h => SeedCall.body_keyed hd h

/-- A call that ended well, in any interleaving, left its fixture stored. -/
theorem stored_of_serial {call : SeedCall} (hf : call.fixture.Distinct)
    {before after : List (ErpWrite J)} {d₀ now : ErpDb J} {outcome : SeedOutcome}
    (h : Serial erpSchema ErpDb.Keyed (call.body host) before d₀ (.ok outcome) after now) :
    call.fixture.AllStored host now := by
  rcases h with ⟨hout, -⟩ | ⟨d, -, hd, hout, -, hnow⟩
  · cases hout
  · cases hon : (call.body host).on erpSchema d with
    | error e =>
      rw [hon] at hout
      cases hout
    | ok result =>
      rw [hon] at hnow
      exact hnow.lasting (fun _ w h => h.apply w) (SeedCall.body_stored hf hd hon)

/-- A call entered where its fixture is stored has nothing to do. -/
theorem unchanged_of_serial {call : SeedCall} (hf : call.fixture.Distinct)
    {before after : List (ErpWrite J)} {d₀ now : ErpDb J} {out : Except SeedError SeedOutcome}
    (hstored : call.fixture.AllStored host d₀)
    (h : Serial erpSchema ErpDb.Keyed (call.body host) before d₀ out after now) :
    (out = .ok .unchanged ∨ out = .error (.sql .unavailable)) ∧ after = before := by
  rcases h with ⟨hout, hafter⟩ | ⟨d, hr, hd, hout, hafter, -⟩
  · exact ⟨Or.inr hout, hafter⟩
  · have hon : (call.body host).on erpSchema d = .ok (.unchanged, []) :=
      (SeedCall.body_unchanged hf hd).mpr ⟨hr.lasting (fun _ w h => h.apply w) hstored, rfl⟩
    rw [hon] at hout hafter
    exact ⟨Or.inl hout, by simpa [written] using hafter⟩

/-- Seeding is all or nothing. On a database with primary keys it creates just if none of the ids
exists, the fixture has a record and the tables take every insert, or, of a golden fixture, if its
vendors alone are there ; it leaves everything as it is just if every record is stored exactly. A
call that nobody gets between does so on the database as it is, and in any interleaving every
call does so on one database it met, or cannot reach the store and writes nothing. Once a call
has ended well its fixture is stored, and any call for it entered later finds it unchanged. -/
theorem erp_seed_all_or_nothing {ι A : Type} [DecidableEq ι] :
    (∀ f : ErpFixture, f.Distinct → ∀ d : ErpDb J, d.Keyed → ∀ ws,
      ((seedFixture host f).on erpSchema d = .ok (.created, ws) ↔
        f.NoneExist host d ∧ f.counts ≠ (0, 0, 0) ∧ Accepts host d (f.records true) ∧
          ws = (f.records true).map (ErpRecord.write host)) ∧
      ((seedFixture host f).on erpSchema d = .ok (.unchanged, ws) ↔
        f.AllStored host d ∧ ws = []) ∧
      ((seedGoldenFixture host f).on erpSchema d = .ok (.created, ws) ↔
        (f.NoneExist host d ∧ f.counts ≠ (0, 0, 0) ∧ Accepts host d (f.records true) ∧
          ws = (f.records true).map (ErpRecord.write host)) ∨
        (f.OnlyVendorsStored host d ∧ f.vendors ≠ [] ∧ f.counts ≠ (f.vendors.length, 0, 0) ∧
          Accepts host d (f.records false) ∧
          ws = (f.records false).map (ErpRecord.write host))) ∧
      ((seedGoldenFixture host f).on erpSchema d = .ok (.unchanged, ws) ↔
        f.AllStored host d ∧ ws = [])) ∧
    (∀ (call : SeedCall) (i : ι) (d : ErpDb J), ∃ g',
      ((seeders host ι A).body call).runAlone i (Server.start d) =
        some (((call.body host).on erpSchema d).map Prod.fst, g') ∧
      g'.db = erpSchema.applyAll d (written ((call.body host).on erpSchema d))) ∧
    ∀ d₀ : ErpDb J, d₀.Keyed → ∀ cfg, (seeders host ι A).Reachable (Server.start d₀) cfg →
      ∀ i t out, cfg.thread i = some t → t.rest.outcome? = some out →
        Serial erpSchema ErpDb.Keyed (t.call.body host) (t.entry.session i).wrote t.entry.db out
          (cfg.store.session i).wrote cfg.store.db ∧
        ∀ outcome, out = .ok outcome → t.call.fixture.Distinct →
          t.call.fixture.AllStored host cfg.store.db ∧
          ∀ es cfg' es' cfg'' j, (seeders host ι A).replay cfg es = some cfg' →
            cfg'.thread j = none → (seeders host ι A).replay cfg' es' = some cfg'' →
            ∀ t' out', cfg''.thread j = some t' → t'.rest.outcome? = some out' →
              t'.call.fixture = t.call.fixture →
              (out' = .ok .unchanged ∨ out' = .error (.sql .unavailable)) ∧
                (cfg''.store.session j).wrote = (t'.entry.session j).wrote := by
  refine ⟨fun f hf d hd ws => ⟨seedFixture_created, seedFixture_unchanged hf hd,
    seedGoldenFixture_created hf hd, seedGoldenFixture_unchanged hf hd⟩,
    fun call i d => runAlone_exclusive (call.body host) d, ?_⟩
  intro d₀ hd₀ cfg hcfg i t out ht hout
  have hserial : ∀ {cfg i t out}, (seeders host ι A).Reachable (Server.start d₀) cfg →
      cfg.thread i = some t → t.rest.outcome? = some out →
      Serial erpSchema ErpDb.Keyed (t.call.body host) (t.entry.session i).wrote t.entry.db out
        (cfg.store.session i).wrote cfg.store.db := fun hcfg ht hout =>
    System.post_of_reachable (seeders_verified host) (inv_start hd₀) (fun i => idle_start d₀) hcfg
      ht hout
  refine ⟨hserial hcfg ht hout, fun outcome hok hf => ?_⟩
  subst hok
  have hstored := stored_of_serial host hf (hserial hcfg ht hout)
  refine ⟨hstored, fun es cfg' es' cfg'' j hes hnone hes' t' out' ht' hout' hcall => ?_⟩
  have hlasting : ∀ (d : ErpDb J) w, t.call.fixture.AllStored host d →
      t.call.fixture.AllStored host (erpSchema.apply d w) := fun _ w h => h.apply w
  have hvalid := System.valid (seeders_verified host) (inv_start hd₀) (fun i => idle_start d₀) hcfg
  obtain ⟨hvalid', hstored'⟩ := lasting_replay (seeders_verified host) hlasting hvalid hstored hes
  have hentered := called_after (seeders_verified host) hlasting hvalid' hstored' hnone hes' ht'
  rw [← hcall] at hf hentered
  exact unchanged_of_serial host hf hentered (hserial ((hcfg.replay hes).replay hes') ht' hout')

end

/-! ### Nothing to create, and a name that is taken -/

/-- Lines are kept as the JSON they are stored as. -/
def ErpHost.sample : ErpHost Json where
  takes _ := true
  jsonb j := j
  orderLines := OrderLines.codec.parse
  receiptLines := ReceiptLines.codec.parse
  orderLines_jsonb _ _ _ h := h
  receiptLines_jsonb _ _ _ h := h
  utcOffset _ := 0

/-- A vendor with that identifier. -/
def sampleVendor (id : Uuid) : Vendor where
  id := id
  externalId := ⟨"SYN-V-001", by decide⟩
  name := ⟨"Synthetic Vendor", by decide⟩
  taxId := none
  bankAccountIban := none
  status := .active
  createdAt := ⟨0, 0⟩

/-- A fixture of that vendor. -/
def sampleFixture : ErpFixture :=
  ⟨[sampleVendor 1], [], []⟩

theorem sampleFixture_distinct : sampleFixture.Distinct :=
  ⟨by decide, by decide, by decide⟩

theorem keyed_empty : ErpDb.Keyed (⟨[], [], []⟩ : ErpDb Json) := by
  constructor <;> exact List.nodup_nil

/-- The first caller has the lock when the second one begins. -/
def seedSchedule : List (Event ℕ Empty SeedCall) :=
  [Event.start 0 (SeedCall.base sampleFixture), .start 1 (.golden sampleFixture)] ++
    List.replicate 2 (Event.stmt 0 .proceed) ++ [Event.stmt 1 .proceed] ++
    List.replicate 3 (Event.stmt 0 .proceed) ++ List.replicate 3 (Event.stmt 1 .proceed)

/-- The calls, and how they have ended. -/
def SeedCall.outcomes (cfg : Config ℕ (Server ℕ (ErpDb Json) (ErpWrite Json) Unit) Empty SeedError
    SeedOutcome SeedCall) : List (Option (SeedCall × Option (Except SeedError SeedOutcome))) :=
  [0, 1].map fun i => (cfg.thread i).map fun t => (t.call, t.rest.outcome?)

/-- The sample schedule creates the fixture once. -/
theorem seedSchedule_outcomes :
    ((seeders ErpHost.sample ℕ Empty).replay (System.initial (Server.start ⟨[], [], []⟩))
      seedSchedule).map SeedCall.outcomes =
        some [some (.base sampleFixture, some (.ok .created)),
          some (.golden sampleFixture, some (.ok .unchanged))] := by
  rfl

/-- The base fixture is created where nothing is stored. Of two callers at once the first creates
it and the second leaves it, and it is stored. -/
theorem erp_seed_all_or_nothing_twoCallers :
    (seedFixture .sample sampleFixture).on erpSchema ⟨[], [], []⟩ =
        .ok (.created, (sampleFixture.records true).map (ErpRecord.write ErpHost.sample)) ∧
      ∃ cfg : Config ℕ (Server ℕ (ErpDb Json) (ErpWrite Json) Unit) Empty SeedError SeedOutcome
          SeedCall,
        SeedCall.outcomes cfg = [some (.base sampleFixture, some (.ok .created)),
          some (.golden sampleFixture, some (.ok .unchanged))] ∧
        sampleFixture.AllStored .sample cfg.store.db := by
  obtain ⟨halone, -, htogether⟩ := @erp_seed_all_or_nothing Json ErpHost.sample ℕ Empty _
  have hnone : sampleFixture.NoneExist .sample ⟨[], [], []⟩ := by
    constructor <;> simp [SeedTable.Absent, sampleFixture, vendorsTable]
  refine ⟨(halone _ sampleFixture_distinct _ keyed_empty _).1.mpr
    ⟨hnone, by decide, ⟨by decide +kernel, trivial⟩, rfl⟩, ?_⟩
  obtain ⟨cfg, hcfg, houts⟩ := Option.map_eq_some_iff.mp seedSchedule_outcomes
  refine ⟨cfg, houts, ?_⟩
  obtain ⟨t, ht, hcall⟩ := Option.map_eq_some_iff.mp (List.cons.inj houts).1
  obtain ⟨hcall, hout⟩ := Prod.mk.inj hcall
  obtain ⟨-, hstored⟩ := htogether _ keyed_empty cfg ⟨seedSchedule, hcfg⟩ 0 t _ ht hout
  have hfixture : t.call.fixture = sampleFixture := congrArg SeedCall.fixture hcall
  rw [← hfixture]
  exact (hstored .created rfl (by rw [hfixture]; exact sampleFixture_distinct)).1

/-- An empty fixture is left unchanged though none of its ids exists, and a fixture with a vendor
whose external id another vendor has cannot be created though none of its ids exists. -/
theorem erp_seed_not_created :
    (ErpFixture.NoneExist .sample ⟨[], [], []⟩ ⟨[], [], []⟩ ∧
      (seedFixture .sample ⟨[], [], []⟩).on erpSchema ⟨[], [], []⟩ = .ok (.unchanged, [])) ∧
    ErpFixture.NoneExist .sample ⟨[sampleVendor 1], [], []⟩ ⟨[(sampleVendor 2).row], [], []⟩ ∧
      (seedFixture .sample ⟨[sampleVendor 1], [], []⟩).on erpSchema
          ⟨[(sampleVendor 2).row], [], []⟩ =
        .error (.sql (.violation "uq_vendors_external_id")) := by
  have horders : ∀ d, (purchaseOrdersTable ErpHost.sample).Absent [] d := by simp [SeedTable.Absent]
  have hreceipts : ∀ d, (goodsReceiptsTable ErpHost.sample).Absent [] d := by
    simp [SeedTable.Absent]
  refine ⟨⟨⟨?_, horders _, hreceipts _⟩, ?_⟩, ⟨?_, horders _, hreceipts _⟩, ?_⟩
  · simp [SeedTable.Absent]
  · decide +kernel
  · simp [SeedTable.Absent, vendorsTable, sampleVendor, Vendor.row]
  · decide +kernel

end InvoiceOps
