import InvoiceOps.DecimalRound
import InvoiceOps.MatchingExact

/-!
# Matching by totals received

Two snapshots of an order that only differ in their goods receipts, and received the same total of
every line (`SameTotals`), have the same match. A total may be written with other trailing zeros,
so that the numbers of the checks are compared as `Decimal`s are, by their value
(`NumericCheck.measurement`).
-/

open Decimal (Arithmetic Context)

namespace InvoiceOps

/-- A numeric check on the rationals. -/
structure Measurement where
  field : NumericField
  lineNumber : Option LineNumber
  rule : MatchRule
  expected : Option ℚ
  actual : Option ℚ
  difference : Option ℚ
  tolerance : Option ℚ
  status : CheckStatus
  deriving DecidableEq

/-- A check, with its numbers by value. -/
def NumericCheck.measurement (check : NumericCheck) : Measurement where
  field := check.val.field
  lineNumber := check.val.lineNumber
  rule := check.val.rule
  expected := check.val.expected.map Decimal.value
  actual := check.val.actual.map Decimal.value
  difference := check.val.difference.map Decimal.value
  tolerance := check.val.tolerance.map Decimal.value
  status := check.val.status

/-- Snapshots of one order, with the same total received of each line. -/
structure SameTotals (snapshot snapshot' : ERPSnapshotData) : Prop where
  vendor : snapshot.vendor = snapshot'.vendor
  purchaseOrder : snapshot.purchaseOrder = snapshot'.purchaseOrder
  received : ∀ line ∈ snapshot.poLines,
    Match.receivedOf snapshot line.lineNumber = Match.receivedOf snapshot' line.lineNumber

namespace Match

/-! ## Numbers of the same value -/

theorem newCheck_val {check : NumericCheckData} {c : NumericCheck} (h : newCheck check = .ok c) :
    c.val = check := by
  unfold newCheck construct at h
  split_ifs at h
  rw [← Except.ok.inj h]

theorem within_congr {rule : MatchRule} {difference difference' tolerance tolerance' : Decimal}
    {b b' : Bool} (hdifference : difference.value = difference'.value)
    (htolerance : tolerance.value = tolerance'.value)
    (h : within rule difference tolerance = .ok b)
    (h' : within rule difference' tolerance' = .ok b') : b = b' := by
  cases rule with
  | equal =>
    obtain ⟨size, hsize, h⟩ := bind_eq_ok.mp h
    obtain ⟨size', hsize', h'⟩ := bind_eq_ok.mp h'
    have hvalue : size.value = size'.value := by
      rw [Context.value_of_abs (by decide) hsize, Context.value_of_abs (by decide) hsize',
        hdifference]
    rw [← Except.ok.inj h, ← Except.ok.inj h', hvalue, htolerance]
  | atMost =>
    rw [← Except.ok.inj h, ← Except.ok.inj h', hdifference, htolerance]

/-- A check only depends on the values of its numbers. -/
theorem numeric_congr {field : NumericField} {lineNumber : Option LineNumber} {rule : MatchRule}
    {expected expected' : Decimal} {actual actual' : Option Decimal} {absolute relative : Decimal}
    {positive : Bool} {c c' : NumericCheck} (hexpected : expected.value = expected'.value)
    (hactual : actual.map Decimal.value = actual'.map Decimal.value)
    (h : numeric field lineNumber rule expected actual absolute relative positive = .ok c)
    (h' : numeric field lineNumber rule expected' actual' absolute relative positive = .ok c') :
    c.measurement = c'.measurement := by
  cases actual with
  | none =>
    obtain rfl := Option.map_eq_none_iff.mp hactual.symm
    unfold NumericCheck.measurement
    rw [newCheck_val h, newCheck_val h']
    simp [hexpected]
  | some a =>
    obtain ⟨a', rfl, ha⟩ := Option.map_eq_some_iff.mp hactual.symm
    obtain ⟨size, hsize, h⟩ := bind_eq_ok.mp h
    obtain ⟨product, hproduct, h⟩ := bind_eq_ok.mp h
    obtain ⟨difference, hdifference, h⟩ := bind_eq_ok.mp h
    obtain ⟨close, hclose, h⟩ := bind_eq_ok.mp h
    obtain ⟨size', hsize', h'⟩ := bind_eq_ok.mp h'
    obtain ⟨product', hproduct', h'⟩ := bind_eq_ok.mp h'
    obtain ⟨difference', hdifference', h'⟩ := bind_eq_ok.mp h'
    obtain ⟨close', hclose', h'⟩ := bind_eq_ok.mp h'
    have hsizeValue : size.value = size'.value := by
      rw [Context.value_of_abs (by decide) hsize, Context.value_of_abs (by decide) hsize',
        hexpected]
    have hproductValue : product.value = product'.value := by
      rw [Context.value_of_mul (by decide) hproduct, Context.value_of_mul (by decide) hproduct',
        hsizeValue]
    have hdifferenceValue : difference.value = difference'.value := by
      rw [Context.value_of_sub (by decide) hdifference,
        Context.value_of_sub (by decide) hdifference', hexpected, ha]
    have htolerance : (larger absolute product).value = (larger absolute product').value := by
      rw [value_larger, value_larger, hproductValue]
    obtain rfl := within_congr hdifferenceValue htolerance hclose hclose'
    unfold NumericCheck.measurement
    rw [newCheck_val h, newCheck_val h']
    simp [hexpected, ha, hdifferenceValue, htolerance]

theorem headerNumbers_congr {policy : MatchConfig} {order : PurchaseOrder}
    {subtotal : Option Decimal} {value value' : Decimal} {cs cs' : List NumericCheck}
    (hvalue : value.value = value'.value) (h : headerNumbers policy order subtotal value = .ok cs)
    (h' : headerNumbers policy order subtotal value' = .ok cs') :
    cs.map NumericCheck.measurement = cs'.map NumericCheck.measurement := by
  obtain ⟨ordered, hordered, h⟩ := bind_eq_ok.mp h
  obtain ⟨received, hreceived, h⟩ := bind_eq_ok.mp h
  obtain ⟨receipt, hreceipt, h⟩ := bind_eq_ok.mp h
  obtain ⟨ordered', hordered', h'⟩ := bind_eq_ok.mp h'
  obtain ⟨received', hreceived', h'⟩ := bind_eq_ok.mp h'
  obtain ⟨receipt', hreceipt', h'⟩ := bind_eq_ok.mp h'
  have hsome : (some value).map Decimal.value = (some value').map Decimal.value :=
    congrArg some hvalue
  rw [← Except.ok.inj h, ← Except.ok.inj h', List.map_cons, List.map_cons, List.map_cons,
    numeric_congr rfl rfl hordered hordered', numeric_congr hvalue rfl hreceived hreceived',
    numeric_congr rfl hsome hreceipt hreceipt']
  rfl

theorem total_eq {totals : LineNumber → Option Decimal} {number : LineNumber} {d arrived : Decimal}
    (hd : totals number = some d) (h : total totals number = .ok arrived) : arrived = d := by
  rw [total, hd] at h
  exact (Except.ok.inj h).symm

theorem lineNumbers_congr {policy : MatchConfig} {totals totals' : LineNumber → Option Decimal}
    {line : PurchaseOrderLine} {invoiceLine : Option InvoiceLineItem} {d d' : Decimal}
    {cs cs' : List NumericCheck} (hd : totals line.lineNumber = some d)
    (hd' : totals' line.lineNumber = some d') (hvalue : d.value = d'.value)
    (h : lineNumbers policy totals line invoiceLine = .ok cs)
    (h' : lineNumbers policy totals' line invoiceLine = .ok cs') :
    cs.map NumericCheck.measurement = cs'.map NumericCheck.measurement := by
  obtain ⟨price, hprice, h⟩ := bind_eq_ok.mp h
  obtain ⟨ordered, hordered, h⟩ := bind_eq_ok.mp h
  obtain ⟨arrived, harrived, h⟩ := bind_eq_ok.mp h
  obtain ⟨received, hreceived, h⟩ := bind_eq_ok.mp h
  obtain ⟨receipt, hreceipt, h⟩ := bind_eq_ok.mp h
  obtain ⟨net, hnet, h⟩ := bind_eq_ok.mp h
  obtain ⟨price', hprice', h'⟩ := bind_eq_ok.mp h'
  obtain ⟨ordered', hordered', h'⟩ := bind_eq_ok.mp h'
  obtain ⟨arrived', harrived', h'⟩ := bind_eq_ok.mp h'
  obtain ⟨received', hreceived', h'⟩ := bind_eq_ok.mp h'
  obtain ⟨receipt', hreceipt', h'⟩ := bind_eq_ok.mp h'
  obtain ⟨net', hnet', h'⟩ := bind_eq_ok.mp h'
  obtain rfl := total_eq hd harrived
  obtain rfl := total_eq hd' harrived'
  obtain rfl := Except.ok.inj (hnet.symm.trans hnet')
  have hsome : (some arrived).map Decimal.value = (some arrived').map Decimal.value :=
    congrArg some hvalue
  rw [← Except.ok.inj h, ← Except.ok.inj h', List.map_cons, List.map_cons, List.map_cons,
    List.map_cons, numeric_congr rfl rfl hprice hprice', numeric_congr rfl rfl hordered hordered',
    numeric_congr hvalue rfl hreceived hreceived',
    numeric_congr rfl hsome hreceipt hreceipt']
  rfl

/-- Lists of the same value, line by line. -/
theorem map_flatten_congr {α β γ : Type} {f f' : α → Except Exn (List β)} {g : β → γ}
    {l : List α} {xss xss' : List (List β)}
    (hf : ∀ a ∈ l, ∀ xs xs', f a = .ok xs → f' a = .ok xs' → xs.map g = xs'.map g)
    (h : l.mapM f = .ok xss) (h' : l.mapM f' = .ok xss') :
    xss.flatten.map g = xss'.flatten.map g := by
  induction l generalizing xss xss' with
  | nil =>
    rw [List.mapM_nil] at h h'
    rw [← Except.ok.inj h, ← Except.ok.inj h']
  | cons a l ih =>
    rw [List.mapM_cons] at h h'
    obtain ⟨xs, hxs, h⟩ := bind_eq_ok.mp h
    obtain ⟨rest, hrest, h⟩ := bind_eq_ok.mp h
    obtain ⟨xs', hxs', h'⟩ := bind_eq_ok.mp h'
    obtain ⟨rest', hrest', h'⟩ := bind_eq_ok.mp h'
    rw [← Except.ok.inj h, ← Except.ok.inj h', List.flatten_cons, List.flatten_cons,
      List.map_append, List.map_append, hf a List.mem_cons_self xs xs' hxs hxs',
      ih (fun b hb => hf b (List.mem_cons_of_mem a hb)) hrest hrest']

/-- The checks only depend on the totals received. -/
theorem numericChecks_congr (extraction : InvoiceExtraction) {snapshot snapshot' : ERPSnapshot}
    (policy : MatchConfig) (h : SameTotals snapshot.val snapshot'.val)
    {cs cs' : List NumericCheck} (hcs : numericChecks extraction snapshot.val policy = .ok cs)
    (hcs' : numericChecks extraction snapshot'.val policy = .ok cs') :
    cs.map NumericCheck.measurement = cs'.map NumericCheck.measurement := by
  have hlines : snapshot.val.poLines = snapshot'.val.poLines := by
    unfold ERPSnapshotData.poLines
    rw [h.purchaseOrder]
  obtain ⟨totals, htotals, hreceived⟩ := received_total snapshot.property
  obtain ⟨totals', htotals', hreceived'⟩ := received_total snapshot'.property
  obtain ⟨value, hvalue, hvalueEq, -⟩ := receivedValue_eq hreceived
  obtain ⟨value', hvalue', hvalueEq', -⟩ := receivedValue_eq hreceived'
  have hsame : value.value = value'.value := by
    rw [hvalueEq, hvalueEq', receivedValueOf, receivedValueOf, ← hlines]
    exact congrArg List.sum (List.map_congr_left fun line hline => by rw [h.received line hline])
  unfold numericChecks at hcs hcs'
  rw [htotals, ok_bind, hvalue, ok_bind] at hcs
  rw [htotals', ok_bind, hvalue', ok_bind, ← h.purchaseOrder, ← hlines] at hcs'
  obtain ⟨header, hheader, hcs⟩ := bind_eq_ok.mp hcs
  obtain ⟨lines, hlinesOk, hcs⟩ := bind_eq_ok.mp hcs
  obtain ⟨header', hheader', hcs'⟩ := bind_eq_ok.mp hcs'
  obtain ⟨lines', hlinesOk', hcs'⟩ := bind_eq_ok.mp hcs'
  rw [← Except.ok.inj hcs, ← Except.ok.inj hcs', List.map_append, List.map_append,
    headerNumbers_congr hsame hheader hheader', map_flatten_congr ?_ hlinesOk hlinesOk']
  intro line hline xs xs' hxs hxs'
  obtain ⟨d, hd, htotal⟩ := hreceived line hline
  obtain ⟨d', hd', htotal'⟩ := hreceived' line (hlines ▸ hline)
  refine lineNumbers_congr hd hd' ?_ hxs hxs'
  rw [htotal.value, htotal'.value, h.received line hline]

theorem statuses_of_measurements {cs cs' : List NumericCheck}
    (h : cs.map NumericCheck.measurement = cs'.map NumericCheck.measurement) :
    (cs.map fun c => c.val.status) = cs'.map fun c => c.val.status := by
  have hstatus := congrArg (List.map Measurement.status) h
  rwa [List.map_map, List.map_map] at hstatus

end Match

/-- A match only depends on the receipts through the total received of each line. -/
theorem match_invoice_receipts (host : Host) (request : MatchRequest) (config : Option MatchConfig)
    (snapshot snapshot' : ERPSnapshot) (h : SameTotals snapshot.val snapshot'.val) :
    ∃ result result',
      matchInvoice host { request with snapshot := some snapshot } config = .ok result ∧
      matchInvoice host { request with snapshot := some snapshot' } config = .ok result' ∧
      result.val.status = result'.val.status ∧
      result.val.identityChecks = result'.val.identityChecks ∧
      result.val.numericChecks.map NumericCheck.measurement =
        result'.val.numericChecks.map NumericCheck.measurement := by
  obtain ⟨numeric, hvalid, hnumeric, -, hresult⟩ := @matchInvoice_some host
    { request with snapshot := some snapshot } snapshot config rfl
  obtain ⟨numeric', hvalid', hnumeric', -, hresult'⟩ := @matchInvoice_some host
    { request with snapshot := some snapshot' } snapshot' config rfl
  have hchecks := Match.numericChecks_congr request.extraction _ h hnumeric hnumeric'
  have hidentity : Match.headerIdentities host request.extraction snapshot.val ++
      snapshot.val.poLines.map (Match.lineIdentity host request.extraction) =
      Match.headerIdentities host request.extraction snapshot'.val ++
        snapshot'.val.poLines.map (Match.lineIdentity host request.extraction) := by
    unfold Match.headerIdentities ERPSnapshotData.poLines
    rw [h.vendor, h.purchaseOrder]
  refine ⟨_, _, hresult, hresult', ?_, hidentity, hchecks⟩
  simp only [Match.withSnapshot]
  rw [hidentity, Match.statuses_of_measurements hchecks]

namespace Match

theorem paper_text : 1 ≤ "Paper".length ∧ "Paper".length ≤ 1000 := by
  decide

theorem vendor_text : 1 ≤ "Vendor".length ∧ "Vendor".length ≤ 256 := by
  decide

theorem sku_text : 1 ≤ "S-1".length ∧ "S-1".length ≤ 128 := by
  decide

theorem order_text : 1 ≤ "P-1".length ∧ "P-1".length ≤ 128 := by
  decide

theorem trace_text : isTraceId "0123456789abcdef0123456789abcdef" := by
  decide

/-- An order of two, of one line. -/
def smallOrder : PurchaseOrder where
  id := 1
  vendorId := 2
  poNumber := ⟨"P-1", order_text⟩
  status := .open
  currency := .usd
  issuedOn := 0
  totalAmount := ⟨⟨false, 20, 0⟩, by decide +kernel⟩
  lines := ⟨[⟨⟨1, Nat.one_pos⟩, ⟨"S-1", sku_text⟩, ⟨"Paper", paper_text⟩,
    ⟨⟨false, 2, 0⟩, by decide +kernel⟩, ⟨⟨false, 10, 0⟩, by decide +kernel⟩,
    ⟨⟨false, 20, 0⟩, by decide +kernel⟩⟩], by decide⟩
  createdAt := ⟨0, 0⟩

/-- The vendor of the sample. -/
def smallVendor : Vendor where
  id := 2
  externalId := ⟨"V-1", by decide⟩
  name := ⟨"Vendor", vendor_text⟩
  taxId := none
  bankAccountIban := none
  status := .active
  createdAt := ⟨0, 0⟩

/-- A receipt of the only line. -/
def smallReceipt (id : Uuid) (quantity : ReceivedQuantity) : GoodsReceipt where
  id := id
  purchaseOrderId := 1
  receiptNumber := ⟨"R-1", by decide⟩
  receivedAt := ⟨0, 0⟩
  lines := ⟨[⟨⟨1, Nat.one_pos⟩, ⟨"S-1", sku_text⟩, quantity⟩], by simp⟩
  createdAt := ⟨0, 0⟩

/-- Both pieces in one receipt. -/
def together : ERPSnapshot :=
  ⟨⟨smallVendor, smallOrder, ⟨[smallReceipt 3 ⟨⟨false, 2, 0⟩, by decide +kernel⟩], by decide⟩⟩,
    by decide +kernel⟩

/-- A piece in each of two receipts, and a third receipt of nothing. -/
def split : ERPSnapshot :=
  ⟨⟨smallVendor, smallOrder, ⟨[smallReceipt 3 ⟨⟨false, 1, 0⟩, by decide +kernel⟩,
    smallReceipt 4 ⟨⟨false, 100, -2⟩, by decide +kernel⟩,
    smallReceipt 5 ⟨.zero, by decide +kernel⟩], by decide⟩⟩, by decide +kernel⟩

theorem together_split : SameTotals together.val split.val :=
  ⟨rfl, rfl, by decide +kernel⟩

/-- A request of the sample, without a snapshot. -/
def smallRequest : MatchRequest where
  runId := 1
  invoiceId := 2
  traceId := ⟨"0123456789abcdef0123456789abcdef", trace_text⟩
  extraction := .unread
  snapshot := none

end Match

theorem match_invoice_receipts_split :
    ∃ result result',
      matchInvoice .sample { Match.smallRequest with snapshot := some Match.together } =
        .ok result ∧
      matchInvoice .sample { Match.smallRequest with snapshot := some Match.split } = .ok result' ∧
      result.val.status = result'.val.status ∧
      result.val.identityChecks = result'.val.identityChecks ∧
      result.val.numericChecks.map NumericCheck.measurement =
        result'.val.numericChecks.map NumericCheck.measurement :=
  match_invoice_receipts .sample Match.smallRequest none Match.together Match.split
    Match.together_split

end InvoiceOps
