namespace MediaCatalog.Text

abbrev Ranges := List (Nat × Nat)

def Ranges.has (table : Ranges) (n : Nat) : Bool := table.any (fun r => r.1 ≤ n && n ≤ r.2)

def Ranges.find? (table : Ranges) (n : Nat) : Option (Nat × Nat) :=
  List.find? (fun r => r.1 ≤ n && n ≤ r.2) table

end MediaCatalog.Text
