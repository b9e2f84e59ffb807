import ChipEight.Assembly.Image
import ChipEight.Machine.Report

/-!
# Listings

A listing shows a line for every row: its address, the first of its bytes and its text. A label
stands on a line of its own before the first row at its address, and the labels of addresses at
which no row starts come at the end, in the order of their addresses.
-/

namespace ChipEight.Assembly

open Text (HexLayout)

/-- A byte in a listing. -/
def listedByteLayout : HexLayout := ⟨"", true, 2⟩

/-- The number of bytes that a row of a listing shows. -/
def listedBytes : Nat := 8

/-- The bytes of a row as a listing shows them. -/
def bytesText (bytes : List UInt8) : String :=
  " ".intercalate ((bytes.take listedBytes).map fun b => listedByteLayout.render b.toNat) ++
    (if listedBytes < bytes.length then " ..." else "")

/-- The line of a row. -/
def Row.line (row : Row) : String :=
  "  " ++ shortAddressLayout.render row.address ++ "  " ++ padded 24 (bytesText row.bytes) ++
    "  " ++ String.ofList row.text

/-- The line of a label. -/
def labelLine (label : List Char × Int) : String :=
  String.ofList (List.replicate 20 ' ') ++ String.ofList label.1 ++ ":"

/-- The lines of rows, each after the labels at its address, and then the labels that are left. -/
def listingLines (labels : Labels) : List Row → List String
  | [] => (labels.mergeSort fun a b => a.2 ≤ b.2).map labelLine
  | row :: rest =>
    (labels.filter (·.2 = row.address)).map labelLine ++
      row.line :: listingLines (labels.filter (·.2 ≠ row.address)) rest

/-- The listing of a source text that was assembled. -/
def Assembled.listing (a : Assembled) : String :=
  String.join ((listingLines a.labels a.rows).map (· ++ "\n"))

end ChipEight.Assembly
