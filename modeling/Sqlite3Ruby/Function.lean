import Sqlite3Ruby.Conversion

/-!
# Custom functions

`define_function` hands its block to SQLite as the user data of
`rb_sqlite3_func`; `create_function` wraps a block that sets a result on a
`FunctionProxy`. The callback decodes the arguments, calls the block and posts
its result, all of it under `rb_protect`.
-/

namespace Sqlite3Ruby

/-- A proc, as the callback calls it. -/
abbrev Callable := List Value → Outcome Value

/-- What a callback leaves in its `sqlite3_context`. -/
inductive FuncResult
  | value (call : ValueCall)
  | error (message : String)
  deriving DecidableEq

/-- `rb_sqlite3_func_protected`. -/
def rbSqlite3FuncProtected (long : SizeofLong) (callable : Callable) (args : List SqliteValue) :
    Outcome ValueCall := do
  let result ← callable (args.map sqlite3val2rb)
  setSqlite3FuncResult long result

/-- `rb_sqlite3_func`. -/
def rbSqlite3Func (long : SizeofLong) (callable : Callable) (args : List SqliteValue) :
    Outcome FuncResult :=
  match (rbSqlite3FuncProtected long callable args).rbProtect with
  | (some call, 0) => .ok (.value call)
  | _ => .ok (.error "Ruby Exception occurred")

/-- The value SQLite receives, if the callback posts one that it can hold. -/
def FuncResult.posted (native : Utf16.ByteOrder) : FuncResult → Option SqliteValue
  | .value call =>
      match call.stored native with
      | .value x => some x
      | _ => none
  | .error _ => none

structure FunctionProxy where
  result : Value
  context : List (Value × Value)

/-- `FunctionProxy#initialize`. -/
def FunctionProxy.new : FunctionProxy := ⟨.nil, []⟩

/-- A block, with the method that registers it. The block of `create_function`
is given a proxy and leaves it in a new state. -/
inductive FunctionDefinition
  | defineFunction (block : Callable)
  | createFunction (block : FunctionProxy → List Value → Outcome FunctionProxy)

/-- The proc that SQLite is given. -/
def FunctionDefinition.callable : FunctionDefinition → Callable
  | defineFunction block => block
  | createFunction block => fun args => do
      let fp ← block FunctionProxy.new args
      pure fp.result

/-- The block returns its argument unchanged, or sets it as the result. -/
def FunctionDefinition.ReturnsArgument : FunctionDefinition → Prop
  | defineFunction block => ∀ v, block [v] = .ok v
  | createFunction block => ∀ fp v, block fp [v] = .ok { fp with result := v }

/-- Both ways to define a function call the block on the decoded arguments. -/
theorem FunctionDefinition.ReturnsArgument.callable_eq {f : FunctionDefinition}
    (hf : f.ReturnsArgument) (v : Value) : f.callable [v] = .ok v := by
  cases f with
  | defineFunction block => exact hf v
  | createFunction block =>
      change (do let fp ← block FunctionProxy.new [v]; pure fp.result) = _
      rw [hf FunctionProxy.new v]
      rfl

/-- What the callback leaves behind is decided by the encoder alone. -/
theorem rbSqlite3Func_of_returnsArgument (long : SizeofLong) {f : FunctionDefinition}
    (hf : f.ReturnsArgument) {x : SqliteValue} {call : ValueCall}
    (h : setSqlite3FuncResult long (sqlite3val2rb x) = .ok call) :
    rbSqlite3Func long f.callable [x] = .ok (.value call) := by
  have hcall : rbSqlite3FuncProtected long f.callable [x] = .ok call := by
    simp only [rbSqlite3FuncProtected, List.map_cons, List.map_nil, hf.callable_eq]
    exact h
  rw [rbSqlite3Func, hcall]
  rfl

/-- An INTEGER that is a Bignum where a C `long` has eight bytes: it lies outside
of the range from `-2 ^ 62` to `2 ^ 62 - 1`. -/
def IsWideInteger (long : SizeofLong) : SqliteValue → Bool
  | .integer n => long = .eight && !long.isFixnum n.toInt
  | _ => false

theorem setSqlite3FuncResult_integer (long : SizeofLong) (n : Int64) :
    setSqlite3FuncResult long (.integer n.toInt) =
      if IsWideInteger long (.integer n) then .ok (.double (num2dbl n.toInt)) else .ok (.int64 n) := by
  have hsame : Int64.ofInt n.toInt = n := Int64.ofInt_toInt n
  have hpack : bignumToInt64 n.toInt = some n := by
    rw [bignumToInt64_eq, if_pos (isInt64_toInt n), hsame]
  cases hfix : long.isFixnum n.toInt with
  | true => simp [setSqlite3FuncResult, IsWideInteger, hfix]
  | false =>
      cases long with
      | four => simp [setSqlite3FuncResult, IsWideInteger, hfix, SizeofLong.bytes, hpack]
      | eight => simp [setSqlite3FuncResult, IsWideInteger, hfix, SizeofLong.bytes]

/-- The encoder never refuses what the decoder made. -/
theorem setSqlite3FuncResult_sqlite3val2rb (long : SizeofLong) (x : SqliteValue)
    (native : Utf16.ByteOrder) :
    ∃ call, setSqlite3FuncResult long (sqlite3val2rb x) = .ok call ∧
      (call.stored native = .value x ↔ IsWideInteger long x = false) := by
  cases x with
  | null => exact ⟨_, rfl, iff_of_true rfl rfl⟩
  | float d =>
      refine ⟨_, rfl, iff_of_true ?_ rfl⟩
      rw [ValueCall.stored, ofDouble_val]
  | text bytes => exact ⟨_, rfl, iff_of_true (stored_text native bytes.2) rfl⟩
  | blob bytes => exact ⟨_, rfl, iff_of_true (stored_blob native bytes.2) rfl⟩
  | integer n =>
      rw [sqlite3val2rb, setSqlite3FuncResult_integer]
      cases hposts : IsWideInteger long (.integer n) with
      | true =>
          refine ⟨_, rfl, iff_of_false ?_ (by simp)⟩
          simp only [ValueCall.stored, SqliteValue.ofDouble]
          split <;> simp
      | false => exact ⟨_, rfl, iff_of_true rfl rfl⟩

/-- A function that returns its argument unchanged gives every value back,
except an INTEGER beyond the Fixnums of a host with `long` of eight bytes. -/
theorem function_returns_argument_iff (long : SizeofLong) (native : Utf16.ByteOrder)
    (f : FunctionDefinition) (hf : f.ReturnsArgument) (x : SqliteValue) :
    (∃ result, rbSqlite3Func long f.callable [x] = .ok result ∧ result.posted native = some x) ↔
      IsWideInteger long x = false := by
  obtain ⟨call, hcall, hstored⟩ := setSqlite3FuncResult_sqlite3val2rb long x native
  rw [← hstored, rbSqlite3Func_of_returnsArgument long hf hcall]
  simp only [Outcome.ok.injEq, exists_eq_left', FuncResult.posted]
  cases call.stored native <;> simp

/-- `{ |a| a }`. -/
def identityBlock : Callable := fun args => .ok (args.headD .nil)

/-- The test of the round trip returns 10. -/
theorem identityBlock_returns_ten :
    ∃ result, rbSqlite3Func .eight (FunctionDefinition.defineFunction identityBlock).callable
      [.integer 10] = .ok result ∧ result.posted .little = some (.integer 10) :=
  (function_returns_argument_iff .eight .little (.defineFunction identityBlock) (fun _ => rfl)
    (.integer 10)).mpr (by decide)

/-- On a host with `long` of eight bytes the least Bignum comes back as a REAL. -/
theorem identityBlock_loses_bignum :
    ¬ ∃ result, rbSqlite3Func .eight (FunctionDefinition.defineFunction identityBlock).callable
      [.integer 4611686018427387904] = .ok result ∧
        result.posted .little = some (.integer 4611686018427387904) := by
  rintro ⟨result, hresult, hposted⟩
  obtain rfl := Outcome.ok.inj hresult
  exact absurd hposted (by decide)

end Sqlite3Ruby
