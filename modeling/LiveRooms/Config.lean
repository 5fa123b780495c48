import LiveRooms.Filter
import LiveRooms.Text.Blank
import LiveRooms.Text.Case
import LiveRooms.Text.Numeral

/-!
# Configuration

The tuning values of a room list and how they are read from named settings.  The settings are asked
for in the order of `Setting.all`; one that is missing or blank leaves its default, and the first
one that cannot be read ends the reading.  Only then are the two values that must not be zero
looked at.
-/

namespace LiveRooms

/-- The tuning values of a room list. -/
structure Config where
  name : String := "all_rooms"
  /-- Rooms per page of the remote list. -/
  pageSize : UInt32 := 100
  /-- Milliseconds over which edits are gathered into one batch. -/
  batchWindow : UInt64 := 100
  /-- Least number of milliseconds between two decisions about pages. -/
  paginationThrottle : UInt64 := 500
  /-- Milliseconds without a report after which the shown rooms are subscribed to. -/
  subscriptionDebounce : UInt64 := 500
  /-- Most rooms of a viewport that are subscribed to. -/
  maxVisible : UInt64 := 30
  /-- Whether the shown rooms are subscribed to at all. -/
  managesSubscriptions : Bool := false
  filterSettings : FilterSettings := {}
  deriving DecidableEq, Repr

instance : Inhabited Config := ⟨{}⟩

namespace Config

/-- A setting whose value cannot be used. -/
structure Invalid where
  key : String
  value : String
  reason : String
  deriving DecidableEq, Repr

/-- The wording of an invalid setting. -/
def Invalid.message (i : Invalid) : String :=
  "invalid " ++ i.key ++ "='" ++ i.value ++ "': " ++ i.reason

/-- Reads a truth value, in upper or lower case. -/
def flag (s : String) : Except String Bool :=
  if Text.lowered s ∈ ["1", "true", "yes", "on"].map String.toList then .ok true
  else if Text.lowered s ∈ ["0", "false", "no", "off"].map String.toList then .ok false
  else .error "expected a boolean"

/-- Reads a number below `bound`. -/
def number (bound : Nat) (s : String) : Except String Nat :=
  match Numeral.parse bound s.toList with
  | .ok n => .ok n
  | .error fault => .error fault.message

/-- A named setting and what its value, which is trimmed and not empty, changes. -/
structure Setting where
  key : String
  assign : String → Config → Except String Config

namespace Setting

/-- The setting of a 64-bit number. -/
def word (key : String) (set : UInt64 → Config → Config) : Setting :=
  ⟨key, fun value c => (number UInt64.size value).map fun n => set (UInt64.ofNat n) c⟩

/-- The setting of a truth value. -/
def switch (key : String) (set : Bool → Config → Config) : Setting :=
  ⟨key, fun value c => (flag value).map fun b => set b c⟩

/-- The settings, in the order in which they are asked for. -/
def all : List Setting :=
  [⟨"ROOMLIST_NAME", fun value c => .ok { c with name := value }⟩,
    ⟨"ROOMLIST_PAGE_SIZE", fun value c =>
      (number UInt32.size value).map fun n => { c with pageSize := UInt32.ofNat n }⟩,
    word "ROOMLIST_BATCH_WINDOW_MS" fun n c => { c with batchWindow := n },
    word "ROOMLIST_PAGINATION_THROTTLE_MS" fun n c => { c with paginationThrottle := n },
    word "ROOMLIST_SUBSCRIPTION_DEBOUNCE_MS" fun n c => { c with subscriptionDebounce := n },
    word "ROOMLIST_MAX_VISIBLE_RANGE" fun n c => { c with maxVisible := n },
    switch "ROOMLIST_MANAGE_SUBSCRIPTIONS" fun b c => { c with managesSubscriptions := b },
    switch "ROOMLIST_FUZZY_SEARCH" fun b c =>
      { c with filterSettings := { c.filterSettings with fuzzySearch := b } },
    switch "ROOMLIST_LOW_PRIORITY_FILTER" fun b c =>
      { c with filterSettings := { c.filterSettings with hideLowPriority := b } }]

end Setting

/-- Named values, as far as they are set. -/
abbrev Environment := String → Option String

/-- The value of a setting, trimmed, unless it is missing or blank. -/
def Environment.value? (env : Environment) (key : String) : Option String :=
  ((env key).map Text.trim).filter fun value => !value.isEmpty

/-- Reads settings in order into a configuration.  The first component holds the keys that were
asked for. -/
def readSettings (env : Environment) : List Setting → Config → List String × Except Invalid Config
  | [], c => ([], .ok c)
  | setting :: settings, c =>
    match env.value? setting.key with
    | none =>
      let (asked, result) := readSettings env settings c
      (setting.key :: asked, result)
    | some value =>
      match setting.assign value c with
      | .error reason => ([setting.key], .error ⟨setting.key, value, reason⟩)
      | .ok c' =>
        let (asked, result) := readSettings env settings c'
        (setting.key :: asked, result)

/-- Refuses the values zero that would leave nothing to show. -/
def checkZeros (c : Config) : Except Invalid Config :=
  if c.pageSize = 0 then .error ⟨"ROOMLIST_PAGE_SIZE", "0", "must be at least 1"⟩
  else if c.maxVisible = 0 then .error ⟨"ROOMLIST_MAX_VISIBLE_RANGE", "0", "must be at least 1"⟩
  else .ok c

/-- Reads a configuration.  The first component holds the keys that were asked for, in order. -/
def read (env : Environment) : List String × Except Invalid Config :=
  let (asked, result) := readSettings env Setting.all {}
  (asked, result.bind checkZeros)

end Config

end LiveRooms
