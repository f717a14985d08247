import AnkerUpdater.Lib.Runs

/-!
# Values in the NVS

The dispatchers `set` and `get` of the NVS storage manager and the functions
over them.  The NVS library is taken by its results: any call of it may
fail, and the store is known only after a set and a commit that succeed.
-/

namespace AnkerUpdater.NvStorageMan

open Runs

/-- `nvsm_types_t`. -/
inductive NvsmType where
  | i8
  | u8
  | i16
  | u16
  | i32
  | u32
  | i64
  | u64
  | str
  deriving DecidableEq, Repr

def NvsmType.Value : NvsmType → Type
  | .i8 => Int8
  | .u8 => UInt8
  | .i16 => Int16
  | .u16 => UInt16
  | .i32 => Int32
  | .u32 => UInt32
  | .i64 => Int64
  | .u64 => UInt64
  | .str => List UInt8

abbrev Key := List UInt8

/-- What the typed gets find. -/
abbrev Store := (type : NvsmType) → Key → Option type.Value

def Store.put (stored : Store) (type : NvsmType) (key : Key) (value : type.Value) : Store :=
  fun t k ↦ if h : type = t then if k = key then some (h ▸ value) else stored t k else stored t k

/-- Which of the calls of the NVS library in one `set` succeed.  `left` is
the store afterwards, apart from a value that is set and committed. -/
structure SetResults where
  nvsOpen : Bool
  nvsSet : Bool
  nvsCommit : Bool
  left : Store

structure GetResults where
  nvsOpen : Bool
  nvsGet : Bool

/-- The arguments `val_i8` to `val_str` of `set`. -/
structure Values where
  i8 : Int8
  u8 : UInt8
  i16 : Int16
  u16 : UInt16
  i32 : Int32
  u32 : UInt32
  i64 : Int64
  u64 : UInt64
  str : List UInt8

def Values.zero : Values := ⟨0, 0, 0, 0, 0, 0, 0, 0, []⟩

def Values.get (values : Values) : (type : NvsmType) → type.Value
  | .i8 => values.i8
  | .u8 => values.u8
  | .i16 => values.i16
  | .u16 => values.u16
  | .i32 => values.i32
  | .u32 => values.u32
  | .i64 => values.i64
  | .u64 => values.u64
  | .str => values.str

/-- `set` with its result and the store it leaves.  A failed `nvs_open`
leaves the result as it was initialised. -/
def set (type : NvsmType) (values : Values) (key : Option Key) (R : SetResults) (stored : Store) :
    ℤ × Store :=
  match key with
  | none => (-2, stored)
  | some key =>
      if R.nvsOpen then
        let rc := if R.nvsSet then 1 else -1
        let rc := if R.nvsCommit then rc else -1
        (rc, if R.nvsSet && R.nvsCommit then R.left.put type key (values.get type) else R.left)
      else (1, stored)

/-- `get` with its result and what it writes to its output. -/
def get (type : NvsmType) (key : Option Key) (R : GetResults) (stored : Store) :
    ℤ × Option type.Value :=
  match key with
  | none => (-2, none)
  | some key =>
      if R.nvsOpen then
        let value := if R.nvsGet then stored type key else none
        (if value.isSome then 1 else -1, value)
      else (1, none)

/-! ## The functions of the header -/

def nvsmSetStr (value : List UInt8) := set .str { Values.zero with str := value }

def nvsmSetU8 (value : UInt8) := set .u8 { Values.zero with u8 := value }

def nvsmSetI8 (value : Int8) := set .i8 { Values.zero with i8 := value }

def nvsmSetI16 (value : Int16) := set .i16 { Values.zero with i16 := value }

def nvsmSetU16 (value : UInt16) := set .u16 { Values.zero with u16 := value }

def nvsmSetI32 (value : Int32) := set .i32 { Values.zero with i32 := value }

def nvsmSetU32 (value : UInt32) := set .u32 { Values.zero with u32 := value }

def nvsmSetI64 (value : Int64) := set .i64 { Values.zero with i64 := value }

def nvsmSetU64 (value : UInt64) := set .u64 { Values.zero with u64 := value }

/-- The setter of the type. -/
def nvsmSet : (type : NvsmType) → type.Value → Option Key → SetResults → Store → ℤ × Store
  | .i8 => nvsmSetI8
  | .u8 => nvsmSetU8
  | .i16 => nvsmSetI16
  | .u16 => nvsmSetU16
  | .i32 => nvsmSetI32
  | .u32 => nvsmSetU32
  | .i64 => nvsmSetI64
  | .u64 => nvsmSetU64
  | .str => nvsmSetStr

def nvsmGetStr := get .str

def nvsmGetU8 := get .u8

def nvsmGetI8 := get .i8

def nvsmGetI16 := get .i16

def nvsmGetU16 := get .u16

def nvsmGetI32 := get .i32

def nvsmGetU32 := get .u32

def nvsmGetI64 := get .i64

def nvsmGetU64 := get .u64

/-- The getter of the type. -/
def nvsmGet : (type : NvsmType) → Option Key → GetResults → Store → ℤ × Option type.Value
  | .i8 => nvsmGetI8
  | .u8 => nvsmGetU8
  | .i16 => nvsmGetI16
  | .u16 => nvsmGetU16
  | .i32 => nvsmGetI32
  | .u32 => nvsmGetU32
  | .i64 => nvsmGetI64
  | .u64 => nvsmGetU64
  | .str => nvsmGetStr

/-- Every setter hands its value over in the place of its type. -/
theorem nvsmSet_eq (type : NvsmType) (value : type.Value) :
    ∃ values : Values, values.get type = value ∧ nvsmSet type value = set type values := by
  cases type <;> exact ⟨_, rfl, rfl⟩

theorem nvsmGet_eq (type : NvsmType) : nvsmGet type = get type := by cases type <;> rfl

/-! ## Sequences of calls -/

inductive Call where
  | set (type : NvsmType) (value : type.Value) (key : Option Key) (R : SetResults)
  | get (type : NvsmType) (key : Option Key) (R : GetResults)

def step (stored : Store) : Call → Store
  | .set type value key R => (nvsmSet type value key R stored).2
  | .get .. => stored

/-- A result of 1 is the truth: a get that follows the set with no failing
call yields the value, and a get has written the stored value. -/
def Truthful (stored : Store) : Call → Prop
  | .set type value key R => (nvsmSet type value key R stored).1 = 1 →
      nvsmGet type key ⟨true, true⟩ (nvsmSet type value key R stored).2 = (1, some value)
  | .get type key R => (nvsmGet type key R stored).1 = 1 →
      ∃ k v, key = some k ∧ stored type k = some v ∧ (nvsmGet type key R stored).2 = some v

/-- `nvs_open` succeeds, or the key is NULL, or the value to set is stored
already. -/
def Opens (stored : Store) : Call → Prop
  | .set type value key R => R.nvsOpen = true ∨ ∀ k, key = some k → stored type k = some value
  | .get _ key R => R.nvsOpen = true ∨ key = none

variable {stored : Store} {type : NvsmType} {value : type.Value} {key : Key}

@[simp] theorem put_self : stored.put type key value type key = some value := by
  simp [Store.put]

theorem get_stored (h : stored type key = some value) :
    get type (some key) ⟨true, true⟩ stored = (1, some value) := by
  simp [get, h]

theorem truthful_set_iff (values : Values) (key : Option Key) (R : SetResults) :
    ((set type values key R stored).1 = 1 →
      get type key ⟨true, true⟩ (set type values key R stored).2 = (1, some (values.get type))) ↔
      (R.nvsOpen = true ∨ ∀ k, key = some k → stored type k = some (values.get type)) := by
  cases key with
  | none => simp [set]
  | some key =>
      cases hopen : R.nvsOpen with
      | false =>
          cases hstored : stored type key with
          | none => simp [set, get, hopen, hstored]
          | some value => simp [set, get, hopen, hstored]
      | true =>
          refine iff_of_true (fun hrc ↦ ?_) (.inl rfl)
          have hboth : R.nvsSet = true ∧ R.nvsCommit = true := by
            cases hset : R.nvsSet <;> cases hcommit : R.nvsCommit <;>
              simp [set, hopen, hset, hcommit] at hrc ⊢
          apply get_stored
          simp [set, hopen, hboth]

theorem truthful_get_iff (key : Option Key) (R : GetResults) :
    ((get type key R stored).1 = 1 →
      ∃ k v, key = some k ∧ stored type k = some v ∧ (get type key R stored).2 = some v) ↔
      (R.nvsOpen = true ∨ key = none) := by
  cases key with
  | none => simp [get]
  | some key =>
      cases hopen : R.nvsOpen with
      | false => simp [get, hopen]
      | true =>
          refine iff_of_true (fun hrc ↦ ?_) (.inl rfl)
          cases hget : R.nvsGet <;> cases hstored : stored type key <;>
            simp [get, hopen, hget, hstored] at hrc ⊢

/-- The results of a sequence of calls are true exactly if in every call
`nvs_open` succeeds, or nothing hangs on it. -/
theorem truthful_iff (stored : Store) (calls : List Call) :
    Always step Truthful stored calls ↔ Always step Opens stored calls := by
  refine always_congr (fun _ ↦ True) (fun _ _ _ ↦ trivial) trivial fun stored call _ ↦ ?_
  cases call with
  | set type value key R =>
      obtain ⟨values, rfl, hset⟩ := nvsmSet_eq type value
      simp only [Truthful, Opens, hset, nvsmGet_eq]
      exact truthful_set_iff values key R
  | get type key R =>
      simp only [Truthful, Opens, nvsmGet_eq]
      exact truthful_get_iff key R

/-- The key holds 3, and 7 is set although the NVS cannot be opened. -/
def unopened : Call := .set .u8 (7 : UInt8) (some [107]) ⟨false, true, true, fun _ _ ↦ none⟩

def holdsThree : Store := Store.put (fun _ _ ↦ none) .u8 [107] (3 : UInt8)

theorem not_truthful_unopened : nvsmGetU8 (some [107]) ⟨true, true⟩ holdsThree = (1, some (3 : UInt8)) ∧
    ¬∀ (stored : Store) (calls : List Call), Always step Truthful stored calls := by
  refine ⟨get_stored put_self, fun h ↦ ?_⟩
  have hset : nvsmGetU8 (some [107]) ⟨true, true⟩ holdsThree = (1, some (7 : UInt8)) :=
    h holdsThree [unopened] [] unopened [] rfl rfl
  have hget : nvsmGetU8 (some [107]) ⟨true, true⟩ holdsThree = (1, some (3 : UInt8)) :=
    get_stored put_self
  rw [hget] at hset
  exact absurd (Option.some.inj (congrArg Prod.snd hset)) (by decide)

end AnkerUpdater.NvStorageMan
