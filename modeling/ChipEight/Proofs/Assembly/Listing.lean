import ChipEight.Assembly.Listing
import ChipEight.Proofs.Assembly.Joining
import Mathlib.Data.List.Forall2

/-!
# Listings account for everything

**Theorem (`listing_accounts`).** A listing has exactly one row for each line of the source text
that is no label, in the order of the lines. The row carries the base and the number of bytes that
the image has before it, the first bytes of the line, and its text. Every label stands in it exactly
once, immediately before the first row at its address and behind the labels of this address that are
defined earlier, or behind the last row if no row has its address.

The labels are not listed where they are defined. The first row that comes to their address takes
them along, and the rows after it find them gone (`entriesOf`). So the labels in a listing are those
in the table put into another order (`labelsOf_perm`), in which the labels of one address have kept
theirs (`filter_labelsOf`). This holds for any table and any rows, also if several rows have one
address, as those of lines without bytes do.
-/

namespace ChipEight.Assembly

open Text

/-! ## Entries -/

/-- What a line of a listing shows. -/
inductive Entry where
  | label (label : List Char × Int)
  | row (row : Row)
  deriving Repr, DecidableEq

namespace Entry

/-- The line of an entry. -/
def line : Entry → String
  | .label l => labelLine l
  | .row r => r.line

/-- The label that an entry shows. -/
def label? : Entry → Option (List Char × Int)
  | .label l => some l
  | .row _ => none

/-- The row that an entry shows. -/
def row? : Entry → Option Row
  | .label _ => none
  | .row r => some r

end Entry

/-- The labels that entries show. -/
def labelsOf (entries : List Entry) : Labels := entries.filterMap Entry.label?

/-- The rows that entries show. -/
def rowsOf (entries : List Entry) : List Row := entries.filterMap Entry.row?

section Shown

variable (labels : Labels) (row : Row) (front back : List Entry)

@[simp]
theorem labelsOf_map : labelsOf (labels.map .label) = labels := by
  rw [labelsOf, List.filterMap_map]
  exact List.filterMap_some

@[simp]
theorem rowsOf_map : rowsOf (labels.map .label) = [] := by
  rw [rowsOf, List.filterMap_map, List.filterMap_eq_nil_iff]
  exact fun _ _ => rfl

@[simp]
theorem labelsOf_append : labelsOf (front ++ back) = labelsOf front ++ labelsOf back :=
  List.filterMap_append

@[simp]
theorem rowsOf_append : rowsOf (front ++ back) = rowsOf front ++ rowsOf back :=
  List.filterMap_append

@[simp]
theorem labelsOf_cons_row : labelsOf (.row row :: back) = labelsOf back := rfl

@[simp]
theorem rowsOf_cons_row : rowsOf (.row row :: back) = row :: rowsOf back := rfl

end Shown

/-- The entries of a listing. -/
def entriesOf (labels : Labels) : List Row → List Entry
  | [] => (labels.mergeSort fun a b => a.2 ≤ b.2).map .label
  | row :: rest =>
    (labels.filter (·.2 = row.address)).map .label ++
      .row row :: entriesOf (labels.filter (·.2 ≠ row.address)) rest

theorem listingLines_eq (labels : Labels) (rows : List Row) :
    listingLines labels rows = (entriesOf labels rows).map Entry.line := by
  induction rows generalizing labels with
  | nil =>
    rw [listingLines, entriesOf, List.map_map]
    rfl
  | cons row rest ih =>
    rw [listingLines, entriesOf, List.map_append, List.map_cons, ih, List.map_map]
    rfl

/-! ## Where the labels go -/

section Entries

variable (labels : Labels) (rows : List Row)

theorem rowsOf_entriesOf : rowsOf (entriesOf labels rows) = rows := by
  induction rows generalizing labels with
  | nil => rw [entriesOf, rowsOf_map]
  | cons row rest ih => rw [entriesOf, rowsOf_append, rowsOf_map, rowsOf_cons_row, ih]; rfl

/-- No label is lost, and none is listed twice. -/
theorem labelsOf_perm : (labelsOf (entriesOf labels rows)).Perm labels := by
  induction rows generalizing labels with
  | nil =>
    rw [entriesOf, labelsOf_map]
    exact List.mergeSort_perm ..
  | cons row rest ih =>
    rw [entriesOf, labelsOf_append, labelsOf_map, labelsOf_cons_row]
    have hsplit := List.filter_append_perm (fun label : List Char × Int => label.2 = row.address)
      labels
    simp only [← decide_not] at hsplit
    exact ((ih _).append_left _).trans hsplit

theorem address_trans (a b c : List Char × Int) (hab : decide (a.2 ≤ b.2) = true)
    (hbc : decide (b.2 ≤ c.2) = true) : decide (a.2 ≤ c.2) = true :=
  decide_eq_true (Int.le_trans (of_decide_eq_true hab) (of_decide_eq_true hbc))

theorem address_total (a b : List Char × Int) :
    (decide (a.2 ≤ b.2) || decide (b.2 ≤ a.2)) = true := by
  simpa using Int.le_total a.2 b.2

/-- Sorting by address leaves the labels of one address in their order. -/
theorem filter_mergeSort (address : Int) :
    (labels.mergeSort fun a b => a.2 ≤ b.2).filter (·.2 = address) =
      labels.filter (·.2 = address) := by
  have hsame : (labels.filter (·.2 = address)).Pairwise fun a b => decide (a.2 ≤ b.2) = true := by
    refine List.pairwise_of_forall_mem_list fun a ha b hb => ?_
    have haddress : a.2 = address := by simpa using (List.mem_filter.1 ha).2
    have haddress' : b.2 = address := by simpa using (List.mem_filter.1 hb).2
    simp [haddress, haddress']
  have hsub : (labels.filter (·.2 = address)).Sublist (labels.mergeSort fun a b => a.2 ≤ b.2) :=
    List.sublist_mergeSort address_trans address_total hsame List.filter_sublist
  have hfiltered := hsub.filter fun label => decide (label.2 = address)
  rw [List.filter_filter] at hfiltered
  simp only [Bool.and_self] at hfiltered
  have hlength := ((List.mergeSort_perm labels fun a b => a.2 ≤ b.2).filter
    fun label => decide (label.2 = address)).length_eq
  exact (hfiltered.eq_of_length hlength.symm).symm

/-- Labels that are taken out at one address do not matter at another. -/
theorem filter_without {other address : Int} (h : other ≠ address) :
    (labels.filter (·.2 ≠ other)).filter (·.2 = address) = labels.filter (·.2 = address) := by
  rw [List.filter_filter]
  refine List.filter_congr fun label _ => ?_
  by_cases hlabel : label.2 = address
  · simp [hlabel, h.symm]
  · simp [hlabel]

/-- The labels of one address are listed in the order of their definition. -/
theorem filter_labelsOf (address : Int) :
    (labelsOf (entriesOf labels rows)).filter (·.2 = address) =
      labels.filter (·.2 = address) := by
  induction rows generalizing labels with
  | nil => rw [entriesOf, labelsOf_map, filter_mergeSort]
  | cons row rest ih =>
    rw [entriesOf, labelsOf_append, labelsOf_map, labelsOf_cons_row, List.filter_append, ih]
    -- The labels of this address are either all written before the row, or all still to come.
    by_cases h : row.address = address
    · have hnone : (labels.filter (·.2 ≠ row.address)).filter (·.2 = address) = [] := by
        simp [h]
      rw [hnone, List.append_nil, h, List.filter_filter]
      simp only [Bool.and_self]
    · have hnone : (labels.filter (·.2 = row.address)).filter (·.2 = address) = [] := by
        simp only [List.filter_eq_nil_iff, List.mem_filter, decide_eq_true_eq]
        exact fun label hlabel haddress => h (hlabel.2.symm.trans haddress)
      rw [hnone, List.nil_append, filter_without labels h]

/-- The labels of an address stand immediately before the first row at it. -/
theorem entriesOf_append (earlier : List Row) (row : Row) (later : List Row)
    (hfirst : ∀ r ∈ earlier, r.address ≠ row.address) :
    ∃ front back, rowsOf front = earlier ∧
      entriesOf labels (earlier ++ row :: later) =
        front ++ ((labels.filter (·.2 = row.address)).map .label ++ .row row :: back) := by
  induction earlier generalizing labels with
  | nil => exact ⟨[], _, rfl, rfl⟩
  | cons r rest ih =>
    obtain ⟨hr, hrest⟩ := List.forall_mem_cons.1 hfirst
    obtain ⟨front, back, hfront, hentries⟩ := ih (labels.filter (·.2 ≠ r.address)) hrest
    refine ⟨(labels.filter (·.2 = r.address)).map .label ++ .row r :: front, back, ?_, ?_⟩
    · rw [rowsOf_append, rowsOf_map, rowsOf_cons_row, hfront, List.nil_append]
    · rw [List.cons_append, entriesOf, hentries, filter_without labels hr, List.append_assoc,
        List.cons_append]

/-- The labels of addresses that no row has stand behind the last row, sorted by address. -/
theorem exists_left : ∃ (front : List Entry) (left : Labels), rowsOf front = rows ∧
    entriesOf labels rows = front ++ left.map .label ∧
    left.Perm (labels.filter fun label => rows.all (·.address ≠ label.2)) ∧
    left.Pairwise (·.2 ≤ ·.2) := by
  induction rows generalizing labels with
  | nil =>
    refine ⟨[], _, rfl, rfl, ?_, ?_⟩
    · simpa using List.mergeSort_perm ..
    · exact (List.pairwise_mergeSort address_trans address_total labels).imp of_decide_eq_true
  | cons row rest ih =>
    obtain ⟨front, left, hfront, hentries, hperm, hsorted⟩ :=
      ih (labels.filter (·.2 ≠ row.address))
    refine ⟨(labels.filter (·.2 = row.address)).map .label ++ .row row :: front, left, ?_, ?_, ?_,
      hsorted⟩
    · rw [rowsOf_append, rowsOf_map, rowsOf_cons_row, hfront, List.nil_append]
    · rw [entriesOf, hentries, List.append_assoc, List.cons_append]
    -- Left over are the labels that neither this row nor the others have taken.
    · rw [List.filter_filter] at hperm
      refine hperm.trans (.of_eq (List.filter_congr fun label _ => ?_))
      rw [List.all_cons, Bool.and_comm]
      simp [eq_comm]

end Entries

/-! ## Rows and labels of the lines -/

/-- Whether a line defines a label. -/
def SourceLine.isLabel (line : SourceLine) : Bool :=
  match Statement.ofText line.text with
  | .label _ => true
  | _ => false

/-- The row of a line: what the line emits is in the image, and its text is in the listing. An
origin emits zeros up to its address; none of them are listed, and its text is written anew. -/
inductive RowOf (labels : Labels) (line : SourceLine) (row : Row) : Prop
  | origin {operand : List Char} {target : Int}
      (statement : Statement.ofText line.text = .origin operand)
      (reads : readImmediate operand = .ok target) (reaches : row.after = target)
      (empty : row.bytes = []) (text : row.text = ".org ".toList ++ originLayout.chars target)
  | content (content : (Statement.ofText line.text).isContent = true)
      (emits : (Statement.ofText line.text).emit labels = .ok row.bytes)
      (image : row.image = row.bytes) (text : row.text = line.text)

section Lines

variable {labels : Labels} {base : Int} {lines : List SourceLine} {rows : List Row}

/-- A line that is no label has a row, and a label has none. -/
theorem rowOf_of_rowAt? {line : SourceLine} {row : Option Row}
    (h : rowAt? labels base line = .ok row) :
    line.isLabel = true ∧ row = none ∨
      line.isLabel = false ∧ ∃ r, row = some r ∧ RowOf labels line r := by
  unfold SourceLine.isLabel
  cases hstatement : Statement.ofText line.text with
  | label name =>
    rw [rowAt?_label hstatement] at h
    cases h
    exact .inl ⟨rfl, rfl⟩
  | origin operand =>
    cases hread : readImmediate operand with
    | error cause =>
      simp only [rowAt?, hstatement, hread] at h
      cases h
    | ok target =>
      obtain ⟨padding, hpadding, rfl⟩ := rowAt?_origin hstatement hread h
      refine .inr ⟨rfl, _, rfl, .origin hstatement hread ?_ rfl rfl⟩
      -- The zeros of an origin reach up to its address.
      simp only [Row.after, List.length_nil]
      omega
  | bytes | words | operation =>
    have hcontent : (Statement.ofText line.text).isContent = true := by
      rw [hstatement]
      rfl
    obtain ⟨bytes, hemit, rfl⟩ := rowAt?_content hcontent h
    exact .inr ⟨rfl, _, rfl, .content hcontent hemit rfl rfl⟩

/-- There is one row for each line that is no label, in the order of the lines. -/
theorem rowOf_of_rowsFrom (h : rowsFrom labels base lines = .ok rows) :
    List.Forall₂ (RowOf labels) (lines.filter fun line => !line.isLabel) rows := by
  induction lines generalizing base rows with
  | nil =>
    cases h
    exact .nil
  | cons line rest ih =>
    obtain ⟨row, later, hrow, hlater, rfl⟩ := rowsFrom_cons_eq_ok.1 h
    rcases rowOf_of_rowAt? hrow with ⟨hlabel, rfl⟩ | ⟨hlabel, r, rfl, hof⟩
    · rw [List.filter_cons_of_neg (by simp [hlabel])]
      exact ih hlater
    · rw [List.filter_cons_of_pos (by simp [hlabel])]
      exact .cons hof (ih hlater)

/-- A row starts behind the bytes of the rows before it. -/
theorem address_of_rowsFrom (h : rowsFrom labels base lines = .ok rows) {earlier later : List Row}
    {row : Row} (hsplit : rows = earlier ++ row :: later) :
    row.address = base + (earlier.flatMap Row.image).length := by
  induction lines generalizing base rows earlier with
  | nil =>
    cases h
    simp at hsplit
  | cons line rest ih =>
    obtain ⟨first, more, hfirst, hmore, rfl⟩ := rowsFrom_cons_eq_ok.1 h
    cases first with
    -- A label adds no row and no byte.
    | none => simpa using ih hmore hsplit
    | some first =>
      cases earlier with
      | nil =>
        cases hsplit
        simpa using address_of_rowAt? hfirst
      | cons r earlier =>
        cases hsplit
        rw [ih hmore rfl, List.flatMap_cons, List.length_append]
        simp
        omega

theorem Goes.nodup {l next : Layout} {line : SourceLine} (h : Goes l line next)
    (hl : (l.labels.map (·.1)).Nodup) : (next.labels.map (·.1)).Nodup := by
  cases h with
  | label statement new =>
    rw [List.map_append, List.nodup_append]
    refine ⟨hl, List.pairwise_singleton _ _, fun name hname defined hdefined => ?_⟩
    obtain ⟨label, hlabel, rfl⟩ := List.mem_map.1 hname
    rw [List.map_singleton, List.mem_singleton] at hdefined
    rw [hdefined]
    exact (bne_iff_ne.1 (List.lookup_eq_none_iff.1 new label hlabel)).symm
  | origin | content => exact hl

/-- No label is defined twice. -/
theorem nodup_of_scan {l last : Layout} (hscan : l.scan lines = .ok last)
    (hl : (l.labels.map (·.1)).Nodup) : (last.labels.map (·.1)).Nodup := by
  induction lines generalizing l with
  | nil =>
    cases hscan
    exact hl
  | cons line rest ih =>
    obtain ⟨next, hnext, hlast⟩ := bind_ok_iff.1 hscan
    exact ih hlast ((goes_of_step hnext).nodup hl)

/-- A label has the address at which the rows of the lines above it end. -/
theorem label_of_scan {last : Layout} {above below : List SourceLine} {line : SourceLine}
    {name : List Char} (hscan : (Layout.mk [] base).scan lines = .ok last)
    (hrows : rowsFrom last.labels base lines = .ok rows) (hsplit : lines = above ++ line :: below)
    (hstatement : Statement.ofText line.text = .label name) :
    ∃ earlier later, rows = earlier ++ later ∧
      earlier.length = (above.filter fun line => !line.isLabel).length ∧
      (name, base + ((earlier.flatMap Row.image).length : Int)) ∈ last.labels := by
  subst hsplit
  obtain ⟨here, earlier, row, later, -, hearlier, hsum, haddress, hemitted⟩ :=
    emitted_at_line hscan hrows
  refine ⟨earlier, _, hsum, (rowOf_of_rowsFrom hearlier).length_eq.symm, ?_⟩
  rw [hstatement, haddress] at hemitted
  cases hemitted with
  | label stands =>
    obtain ⟨before, after, hlabels, -⟩ := List.lookup_eq_some_iff.1 stands
    rw [hlabels]
    exact List.mem_append_right before List.mem_cons_self
  | content content => cases content

end Lines

/-! ## What a listing accounts for -/

/-- The entries account for everything that was assembled of lines for an address. -/
structure Assembled.Accounts (a : Assembled) (lines : List SourceLine) (base : Int)
    (entries : List Entry) : Prop where
  /-- There is one row for each line that is no label, in the order of the lines. -/
  rows : List.Forall₂ (RowOf a.labels) (lines.filter fun line => !line.isLabel) a.rows
  /-- The rows are the image. -/
  image : a.image = a.rows.flatMap Row.image
  /-- A row has the base and the number of bytes before it. -/
  address : ∀ earlier row later, a.rows = earlier ++ row :: later →
    row.address = base + (earlier.flatMap Row.image).length
  /-- The labels are those of the lines that define one, each with a name of its own. -/
  names : a.labels.map (·.1) = namesOf lines ∧ (namesOf lines).Nodup
  /-- A label has the base and the number of bytes that the lines above it emit. -/
  label_address : ∀ above line below name, lines = above ++ line :: below →
    Statement.ofText line.text = .label name → ∃ earlier later, a.rows = earlier ++ later ∧
      earlier.length = (above.filter fun line => !line.isLabel).length ∧
      (name, base + ((earlier.flatMap Row.image).length : Int)) ∈ a.labels
  /-- The rows are listed in their order. -/
  listed : rowsOf entries = a.rows
  /-- The line of a row shows where it starts, up to eight of its bytes, with dots behind them if
  there are more, and its text. -/
  shown : ∀ row ∈ a.rows, (Entry.row row).line =
    "  " ++ shortAddressLayout.render row.address ++ "  " ++
      padded 24 (" ".intercalate
        ((row.bytes.take 8).map fun b => listedByteLayout.render b.toNat) ++
          if 8 < row.bytes.length then " ..." else "") ++ "  " ++ String.ofList row.text
  /-- Every label is listed exactly once. -/
  once : (labelsOf entries).Perm a.labels
  /-- The labels of one address are listed in the order of their definition. -/
  ordered : ∀ address : Int,
    (labelsOf entries).filter (·.2 = address) = a.labels.filter (·.2 = address)
  /-- They stand immediately before the first row at the address. -/
  before : ∀ earlier row later, a.rows = earlier ++ row :: later →
    (∀ r ∈ earlier, r.address ≠ row.address) →
      ∃ front back, rowsOf front = earlier ∧
        entries = front ++ ((a.labels.filter (·.2 = row.address)).map .label ++ .row row :: back)
  /-- The labels of addresses without a row stand behind the last row, sorted by address. -/
  behind : ∃ (front : List Entry) (left : Labels), rowsOf front = a.rows ∧
    entries = front ++ left.map .label ∧
    left.Perm (a.labels.filter fun label => a.rows.all (·.address ≠ label.2)) ∧
    left.Pairwise (·.2 ≤ ·.2)

/-- **A listing accounts for everything.** -/
theorem listing_accounts {source : String} {base : Int} {a : Assembled}
    (h : assemble source base = .ok a) :
    ∃ entries : List Entry, a.listing = String.join (entries.map fun entry => entry.line ++ "\n") ∧
      a.Accounts (sourceLines source.toList) base entries := by
  rw [assemble_eq] at h
  obtain ⟨last, hscan, hlabels, hrows⟩ := assembleLines_eq_ok.1 h
  refine ⟨entriesOf a.labels a.rows, ?_, ?_⟩
  · rw [Assembled.listing, listingLines_eq, List.map_map]
    rfl
  constructor
  case rows => exact rowOf_of_rowsFrom hrows
  case image => rfl
  case address => exact fun earlier row later hsplit => address_of_rowsFrom hrows hsplit
  case names =>
    have hnames := names_of_scan hscan
    have hnodup := nodup_of_scan hscan List.nodup_nil
    -- The names of the table are those of the label lines, and the first pass lets none come twice.
    rw [hnames] at hnodup
    rw [← hlabels]
    exact ⟨hnames, hnodup⟩
  case label_address =>
    rw [← hlabels] at hrows ⊢
    exact fun above line below name hsplit => label_of_scan hscan hrows hsplit
  case listed => exact rowsOf_entriesOf a.labels a.rows
  case shown => exact fun row _ => rfl
  case once => exact labelsOf_perm a.labels a.rows
  case ordered => exact filter_labelsOf a.labels a.rows
  case before =>
    rintro earlier row later hsplit hfirst
    rw [hsplit]
    exact entriesOf_append a.labels earlier row later hfirst
  case behind => exact exists_left a.labels a.rows

/-- An address with two labels and two rows, more bytes than a row shows, an origin, and a label
behind the last row. -/
def crowdedSource : String := "a:\nb:\n.db\n.db 1,2,3,4,5,6,7,8,9\n.org 0x20B\nz:"

theorem listing_accounts_crowded :
    ∃ a entries, assemble crowdedSource 0x200 = .ok a ∧
      a.listing =
        "                    a:\n" ++
        "                    b:\n" ++
        "  200                            .db\n" ++
        "  200  01 02 03 04 05 06 07 08 ...  .db 1,2,3,4,5,6,7,8,9\n" ++
        "  209                            .org 0x20b\n" ++
        "                    z:\n" ∧
      a.listing = String.join (entries.map fun entry => entry.line ++ "\n") ∧
      a.Accounts (sourceLines crowdedSource.toList) 0x200 entries := by
  have h : assemble crowdedSource 0x200 = .ok
      ⟨[("a".toList, 0x200), ("b".toList, 0x200), ("z".toList, 0x20B)],
        [⟨0x200, 0, [], ".db".toList⟩,
          ⟨0x200, 0, [1, 2, 3, 4, 5, 6, 7, 8, 9], ".db 1,2,3,4,5,6,7,8,9".toList⟩,
          ⟨0x209, 2, [], ".org 0x20b".toList⟩]⟩ := by rfl
  obtain ⟨entries, hlisting, haccounts⟩ := listing_accounts h
  exact ⟨_, entries, h, by decide +kernel, hlisting, haccounts⟩

end ChipEight.Assembly
