import CMakeHelm.Sh.Tool.Calculation
import CMakeHelm.Sh.Tool.Calendar
import CMakeHelm.Sh.Tool.Columns
import CMakeHelm.Sh.Tool.Comparison
import CMakeHelm.Sh.Tool.Digest
import CMakeHelm.Sh.Tool.Edit
import CMakeHelm.Sh.Tool.Files
import CMakeHelm.Sh.Tool.Host
import CMakeHelm.Sh.Tool.Listing
import CMakeHelm.Sh.Tool.Names
import CMakeHelm.Sh.Tool.Printing
import CMakeHelm.Sh.Tool.Search
import CMakeHelm.Sh.Tool.Shared
import CMakeHelm.Sh.Tool.Sorting

namespace CMakeHelm.Sh.Tool

def table : List (String × (List Octets → Run Int)) :=
  Shared.table ++ Printing.table ++ Files.table ++ Names.table ++ Listing.table ++ Sorting.table ++ Columns.table ++ Search.table ++ Edit.table ++
    Calculation.table ++ Calendar.table ++ Digest.table ++ Comparison.table ++ Host.table

def find? (name : String) : Option (List Octets → Run Int) := table.lookup name

end CMakeHelm.Sh.Tool
