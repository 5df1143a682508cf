import DocQuery.AttributeValue

/-!
# DocQuery.Request

The requests a store understands and its responses.

An expression that is not used is absent, never empty.
-/

namespace DocQuery

/-- Which attributes a write returns. -/
inductive ReturnValue where
  | none
  | allOld
  | updatedOld
  | allNew
  | updatedNew
deriving DecidableEq, Repr

def ReturnValue.name : ReturnValue → String
  | .none => "NONE"
  | .allOld => "ALL_OLD"
  | .updatedOld => "UPDATED_OLD"
  | .allNew => "ALL_NEW"
  | .updatedNew => "UPDATED_NEW"

def ReturnValue.all : List ReturnValue := [.none, .allOld, .updatedOld, .allNew, .updatedNew]

instance : Inhabited ReturnValue := ⟨.none⟩

/-- What a read returns of each match. -/
inductive Select where
  | allAttributes
  | allProjectedAttributes
  | specificAttributes
  | count
deriving DecidableEq, Repr

def Select.name : Select → String
  | .allAttributes => "ALL_ATTRIBUTES"
  | .allProjectedAttributes => "ALL_PROJECTED_ATTRIBUTES"
  | .specificAttributes => "SPECIFIC_ATTRIBUTES"
  | .count => "COUNT"

def Select.all : List Select :=
  [.allAttributes, .allProjectedAttributes, .specificAttributes, .count]

instance : Inhabited Select := ⟨.allAttributes⟩

structure UpdateRequest where
  table : String := ""
  key : Item := ∅
  update : Option String := none
  condition : Option String := none
  names : KeyMap String := ∅
  values : Item := ∅
  returnValues : Option ReturnValue := none
deriving DecidableEq, Repr, Inhabited

structure DeleteRequest where
  table : String := ""
  key : Item := ∅
  condition : Option String := none
  names : KeyMap String := ∅
  values : Item := ∅
  returnValues : Option ReturnValue := none
deriving DecidableEq, Repr, Inhabited

structure QueryRequest where
  table : String := ""
  index : Option String := none
  keyCondition : Option String := none
  filter : Option String := none
  projection : Option String := none
  names : KeyMap String := ∅
  values : Item := ∅
  /-- Whether the sort key is walked upwards. -/
  forward : Option Bool := none
  limit : Option Int32 := none
  select : Option Select := none
  consistent : Option Bool := none
deriving DecidableEq, Repr, Inhabited

structure ScanRequest where
  table : String := ""
  index : Option String := none
  filter : Option String := none
  projection : Option String := none
  names : KeyMap String := ∅
  values : Item := ∅
  limit : Option Int32 := none
  select : Option Select := none
  consistent : Option Bool := none
deriving DecidableEq, Repr, Inhabited

/-- The response to a write: the attributes asked for, if any. -/
structure WriteResponse where
  attributes : Item := ∅
deriving DecidableEq, Repr, Inhabited

/-- The response to a read. -/
structure ReadResponse where
  items : List Item := []
  /-- How many items match the filter. -/
  count : Int32 := 0
  /-- How many items were read. -/
  scanned : Int32 := 0
  /-- Where to go on, unless this was the last page. -/
  lastKey : Item := ∅
deriving DecidableEq, Repr, Inhabited

end DocQuery
