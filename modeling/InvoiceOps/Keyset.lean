import Mathlib.Data.List.Sort
import Mathlib.Data.List.Nodup

/-!
# Keyset pagination

A page after a cursor is the first `limit` rows whose key is past it, in the order of the keys. One
row more is asked for : if it is there, the key of the last row of the page is the next cursor.
The page takes the next rows of the sorted list (`select_eq`, `rest_last`), so `follow` reads the
whole list page by page, with no row twice, and ends (`Pages.follow_eq`).
-/

namespace Keyset

variable {α κ : Type} [LinearOrder κ] (key : α → κ)

/-- The rows in the order of their keys. -/
def sorted (rows : List α) : List α :=
  rows.insertionSort fun a b => key a ≤ key b

/-- A row past the cursor. -/
def past (after : Option κ) (row : α) : Bool :=
  after.all fun k => k < key row

/-- `WHERE key > after ORDER BY key LIMIT n`. -/
def select (rows : List α) (after : Option κ) (n : ℕ) : List α :=
  (sorted key (rows.filter (past key after))).take n

/-- What is left after the cursor. -/
def rest (rows : List α) (after : Option κ) : List α :=
  (sorted key rows).filter (past key after)

section

variable {key} {rows : List α}

/-- Sorting keeps the rows. -/
theorem sorted_perm (rows : List α) : (sorted key rows).Perm rows :=
  List.perm_insertionSort ..

/-- Distinct keys are in strict order. -/
theorem pairwise_sorted (h : (rows.map key).Nodup) :
    (sorted key rows).Pairwise fun a b => key a < key b := by
  have hle : (sorted key rows).Pairwise fun a b => key a ≤ key b :=
    List.pairwise_insertionSort (fun a b => key a ≤ key b) rows
  have hne : (sorted key rows).Pairwise fun a b => key a ≠ key b := by
    rw [← List.pairwise_map]
    exact ((sorted_perm rows).map key).nodup_iff.mpr h
  exact hle.imp₂ (fun _ _ h h' => lt_of_le_of_ne h h') hne

/-- Rows with distinct keys can be filtered before or after they are sorted. -/
theorem sorted_filter (h : (rows.map key).Nodup) (p : α → Bool) :
    sorted key (rows.filter p) = (sorted key rows).filter p := by
  have hfilter : ((rows.filter p).map key).Nodup := (List.filter_sublist.map key).nodup h
  have hasymm : Std.Antisymm fun a b : α => key a < key b :=
    ⟨fun _ _ hab hba => absurd hba hab.not_gt⟩
  have hperm : (sorted key (rows.filter p)).Perm ((sorted key rows).filter p) :=
    (sorted_perm _).trans ((sorted_perm rows).filter p).symm
  exact hperm.eq_of_pairwise' (pairwise_sorted hfilter) ((pairwise_sorted h).filter p)

/-- A page is the first rows after the cursor. -/
theorem select_eq (h : (rows.map key).Nodup) (after : Option κ) (n : ℕ) :
    select key rows after n = (rest key rows after).take n := by
  rw [select, sorted_filter h, rest]

/-- The page of a selection with one row more, and whether that row is there. -/
theorem select_succ (h : (rows.map key).Nodup) (after : Option κ) (limit : ℕ) :
    (select key rows after (limit + 1)).take limit = (rest key rows after).take limit ∧
      (limit < (select key rows after (limit + 1)).length ↔
        limit < (rest key rows after).length) := by
  rw [select_eq h, List.take_take, Nat.min_eq_left (Nat.le_succ limit), List.length_take]
  exact ⟨rfl, by omega⟩

/-- Without a cursor every row is left. -/
theorem rest_none (rows : List α) : rest key rows none = sorted key rows :=
  List.filter_eq_self.mpr fun _ _ => rfl

/-- A page that is followed by another one has a last row. -/
theorem exists_getLast {limit : ℕ} (hpos : 0 < limit) {l : List α} (h : limit < l.length) :
    ∃ last, (l.take limit).getLast? = some last := by
  have hne : l.take limit ≠ [] := by
    rw [← List.length_pos_iff, List.length_take]
    omega
  exact ⟨_, List.getLast?_eq_some_getLast hne⟩

/-- What is left after the last row of a page is what the page left. -/
theorem rest_last (h : (rows.map key).Nodup) {after : Option κ} {limit : ℕ} {last : α}
    (hlast : ((rest key rows after).take limit).getLast? = some last) :
    rest key rows (some (key last)) = (rest key rows after).drop limit := by
  obtain ⟨init, hinit⟩ := List.getLast?_eq_some_iff.mp hlast
  have hsplit : rest key rows after = init ++ [last] ++ (rest key rows after).drop limit := by
    rw [← hinit, List.take_append_drop]
  have hpair : (rest key rows after).Pairwise fun a b => key a < key b :=
    (pairwise_sorted h).filter _
  have hmem : last ∈ rest key rows after := by
    rw [hsplit]
    exact List.mem_append_left _ (List.mem_append_right _ (List.mem_singleton_self _))
  -- what is past the last row is past the cursor
  have hpast : rest key rows (some (key last)) =
      (rest key rows after).filter (past key (some (key last))) := by
    have hafter : past key after last := (List.mem_filter.mp hmem).2
    rw [rest, rest, List.filter_filter]
    refine List.filter_congr fun a _ => ?_
    cases after with
    | none => exact (Bool.and_true _).symm
    | some k =>
      have hk : k < key last := of_decide_eq_true hafter
      by_cases ha : key last < key a
      · simp [past, ha, hk.trans ha]
      · simp [past, ha]
  rw [hsplit, List.pairwise_append, List.pairwise_append] at hpair
  obtain ⟨⟨-, -, hinitlast⟩, -, hcross⟩ := hpair
  have hbefore : (init ++ [last]).filter (past key (some (key last))) = [] := by
    rw [List.filter_eq_nil_iff]
    intro a ha
    rcases List.mem_append.mp ha with ha | ha
    · simp [past, (hinitlast a ha last (List.mem_singleton_self _)).le]
    · obtain rfl := List.mem_singleton.mp ha
      simp [past]
  have hafter : ((rest key rows after).drop limit).filter (past key (some (key last))) =
      (rest key rows after).drop limit := by
    rw [List.filter_eq_self]
    intro a ha
    exact decide_eq_true
      (hcross last (List.mem_append_right _ (List.mem_singleton_self _)) a ha)
  rw [hpast, hsplit, List.filter_append, hbefore, List.nil_append, ← hsplit, hafter]

end

/-! ## Following the cursors -/

section

variable {γ ε : Type}

/-- The pages from a cursor on, if there are no more than `n`. -/
def follow (read : Option γ → Except ε (List α × Option γ)) :
    ℕ → Option γ → Option (Except ε (List (List α)))
  | 0, _ => none
  | n + 1, after =>
    match read after with
    | .error e => some (.error e)
    | .ok (items, none) => some (.ok [items])
    | .ok (items, some next) =>
      (follow read n (some next)).map fun pages => pages.map (items :: ·)

/-- Reads of the pages of a list, in which a row that is not valid is an error. A cursor `stands`
before what is left. -/
structure Pages (read : Option γ → Except ε (List α × Option γ)) (limit : ℕ) (valid : α → Prop)
    (failed : ε → Prop) (stands : Option γ → List α → Prop) : Prop where
  limit_pos : 0 < limit
  /-- A read fails if the page has a row that is not valid, and only if one is left. -/
  error : ∀ {after l e}, stands after l → read after = .error e → failed e ∧ ∃ a ∈ l, ¬valid a
  valid : ∀ {after l items next}, stands after l → read after = .ok (items, next) →
    items = l.take limit ∧ ∀ a ∈ items, valid a
  last : ∀ {after l items}, stands after l → read after = .ok (items, none) → l.length ≤ limit
  more : ∀ {after l items next}, stands after l → read after = .ok (items, some next) →
    limit < l.length ∧ stands (some next) (l.drop limit)

/-- What following the cursors comes to : all the pages, or an error if a row is not valid. -/
def Complete (l : List α) (limit : ℕ) (valid : α → Prop) (failed : ε → Prop) :
    Except ε (List (List α)) → Prop
  | .ok pages => pages.flatten = l ∧ (∀ a ∈ l, valid a) ∧ ∀ items ∈ pages, items.length ≤ limit
  | .error e => failed e ∧ ∃ a ∈ l, ¬valid a

variable {read : Option γ → Except ε (List α × Option γ)} {limit : ℕ} {valid : α → Prop}
  {failed : ε → Prop} {stands : Option γ → List α → Prop}

/-- Following the cursors ends, with the list if every row of it is valid, and with an error if
one is not. -/
theorem Pages.follow_eq (h : Pages read limit valid failed stands) {l : List α} :
    ∀ {after : Option γ}, stands after l → ∃ out,
      (∀ n, l.length < n → follow read n after = some out) ∧
        Complete l limit valid failed out := by
  induction hlen : l.length using Nat.strong_induction_on generalizing l with
  | _ m ih =>
  intro after hstands
  have hpos := h.limit_pos
  cases hread : read after with
  | error e =>
    refine ⟨.error e, fun n hn => ?_, h.error hstands hread⟩
    obtain ⟨n, rfl⟩ := Nat.exists_eq_succ_of_ne_zero (Nat.ne_zero_of_lt hn)
    rw [follow, hread]
  | ok page =>
    obtain ⟨items, next⟩ := page
    obtain ⟨rfl, hvalid⟩ := h.valid hstands hread
    cases next with
    | none =>
      have hshort := h.last hstands hread
      rw [List.take_of_length_le hshort] at hread hvalid
      refine ⟨.ok [l], fun n hn => ?_, List.append_nil l, hvalid,
        List.forall_mem_singleton.mpr hshort⟩
      obtain ⟨n, rfl⟩ := Nat.exists_eq_succ_of_ne_zero (Nat.ne_zero_of_lt hn)
      rw [follow, hread]
    | some next =>
      obtain ⟨hlong, hnext⟩ := h.more hstands hread
      have hdrop : (l.drop limit).length = m - limit := by rw [List.length_drop, hlen]
      obtain ⟨out, hout, hspec⟩ := ih (m - limit) (by omega) hdrop hnext
      refine ⟨out.map (l.take limit :: ·), fun n hn => ?_, ?_⟩
      · obtain ⟨n, rfl⟩ := Nat.exists_eq_succ_of_ne_zero (Nat.ne_zero_of_lt hn)
        rw [follow, hread]
        dsimp only
        rw [hout n (by omega)]
        rfl
      · cases out with
        | error e =>
          obtain ⟨hfailed, a, ha, hinvalid⟩ := hspec
          exact ⟨hfailed, a, List.mem_of_mem_drop ha, hinvalid⟩
        | ok pages =>
          obtain ⟨hflat, hrest, hpages⟩ := hspec
          refine ⟨?_, fun a ha => ?_, ?_⟩
          · rw [List.flatten_cons, hflat, List.take_append_drop]
          · rw [← List.take_append_drop limit l] at ha
            exact (List.mem_append.mp ha).elim (hvalid a) (hrest a)
          · exact List.forall_mem_cons.mpr ⟨List.length_take_le limit l, hpages⟩

end

end Keyset
