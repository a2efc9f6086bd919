import H266.BitReader
import H266.Proofs.Bits

/-!
# Checked Arithmetic on Words

A machine computes with *words*: unsigned numbers of a type with so many of them and no more. Here
are the operations that parsers use on them, each of which is checked. Where a sum, a difference, a
product or a shifted number is not a number of its type, where a conversion would lose part of a
number, or where an index is past the end of a list, the computation stops and says why. Nothing
wraps around, and nothing is cut off.

Such computations run over a cursor that keeps its place in words too.

## Main results

* `Computes.bind`: what a sequence of operations computes.
* `computes_add`, `computes_sub`, `computes_mul`, `computes_shiftLeft`, `computes_divCeil`,
  `computes_convert`, `computes_entry`, `computes_setEntry`: when an operation goes through, and
  what it computes.
-/

namespace H266

/-! ### Words -/

/-- A type of words. -/
class Word (α : Type) where
  /-- How many there are. -/
  size : Nat
  toNat : α → Nat
  /-- The word for a number that is below the size. -/
  ofNat : Nat → α
  toNat_lt : ∀ a, toNat a < size
  toNat_ofNat : ∀ {n}, n < size → toNat (ofNat n) = n

namespace Word

/-- Words of 8 bits. -/
instance instUInt8 : Word UInt8 where
  size := UInt8.size
  toNat := UInt8.toNat
  ofNat := UInt8.ofNat
  toNat_lt := UInt8.toNat_lt
  toNat_ofNat := UInt8.toNat_ofNat_of_lt'

/-- Words of 16 bits. -/
instance instUInt16 : Word UInt16 where
  size := UInt16.size
  toNat := UInt16.toNat
  ofNat := UInt16.ofNat
  toNat_lt := UInt16.toNat_lt
  toNat_ofNat := UInt16.toNat_ofNat_of_lt'

/-- Words of 32 bits. -/
instance instUInt32 : Word UInt32 where
  size := UInt32.size
  toNat := UInt32.toNat
  ofNat := UInt32.ofNat
  toNat_lt := UInt32.toNat_lt
  toNat_ofNat := UInt32.toNat_ofNat_of_lt'

/-- Words of 64 bits. -/
instance instUInt64 : Word UInt64 where
  size := UInt64.size
  toNat := UInt64.toNat
  ofNat := UInt64.ofNat
  toNat_lt := UInt64.toNat_lt
  toNat_ofNat := UInt64.toNat_ofNat_of_lt'

/-- Sizes and indices. How many there are depends on the machine, but they have 32 bits at
least. -/
instance instUSize : Word USize where
  size := USize.size
  toNat := USize.toNat
  ofNat := USize.ofNat
  toNat_lt := USize.toNat_lt_size
  toNat_ofNat := USize.toNat_ofNat_of_lt'

/-- Words of 128 bits. -/
instance instBitVec : Word (BitVec 128) where
  size := 2 ^ 128
  toNat := BitVec.toNat
  ofNat := BitVec.ofNat 128
  toNat_lt := BitVec.isLt
  toNat_ofNat := Nat.mod_eq_of_lt

/-- Whatever is below `2 ^ 32` is an index. -/
theorem lt_size_index {n : Nat} (h : n < 4294967296) : n < size USize :=
  Nat.lt_of_lt_of_le h USize.le_size

/-- Indices below 2^32 are kept in words for sizes, however wide these are. -/
theorem toNat_index (n : Nat) (h : n < 4294967296) : (USize.ofNat n).toNat = n :=
  toNat_ofNat (lt_size_index h)

end Word

/-! ### Computations that may stop -/

/-- Why a computation on words stops. -/
inductive Stop
  /-- The data is refused: this is not the fault of the words. -/
  | refused (error : Error)
  /-- The result of an operation is not a number of its type. -/
  | overflow
  /-- A conversion would lose part of a number. -/
  | truncation
  /-- An index is past the end. -/
  | outOfBounds
  /-- More than 64 bits are to be read at once. -/
  | tooWide
  /-- A loop goes on after the rounds that it was given. -/
  | overrun
  deriving DecidableEq, Repr

/-- A cursor over bits as a machine keeps it. -/
structure WordReader where
  /-- Where further bytes come from. Its count of zero bytes may stop at the largest byte, which
  makes no difference (`ByteSource.unescapeSaturating_eq`). -/
  source : ByteSource
  /-- The byte that was fetched last. -/
  current : UInt8
  /-- How many bits of it were read, none at a byte boundary. -/
  bitPos : UInt8
  /-- How many bits were read in all. -/
  consumed : UInt64
  bitPos_lt : bitPos.toNat < 8

/-- A step on words that reads bits. -/
abbrev WordM := StateT WordReader (Except Stop)

/-- Data is refused. -/
def WordM.refuse {α : Type} (error : Error) : WordM α :=
  throw (.refused error)

/-! ### Operations -/

namespace Word

variable {α β : Type} [Word α] [Word β]

/-- The word for a number, if there is one. -/
def exactly (stop : Stop) (n : Nat) : WordM α :=
  if n < size α then pure (ofNat n) else throw stop

/-- Adds, or stops for an overflow. -/
def add (a b : α) : WordM α :=
  exactly .overflow (toNat a + toNat b)

/-- Subtracts, or stops for an overflow. -/
def sub (a b : α) : WordM α :=
  if toNat b ≤ toNat a then exactly .overflow (toNat a - toNat b) else throw .overflow

/-- Multiplies, or stops for an overflow. -/
def mul (a b : α) : WordM α :=
  exactly .overflow (toNat a * toNat b)

/-- Shifts by less than the number of bits, and no bit out of the word. -/
def shiftLeft (a : α) (amount : β) : WordM α :=
  if 2 ^ toNat amount < size α then exactly .overflow (toNat a <<< toNat amount)
  else throw .overflow

/-- Shifts by less than the number of bits; the lowest bits are dropped. -/
def shiftRight (a : α) (amount : β) : WordM α :=
  if 2 ^ toNat amount < size α then exactly .overflow (toNat a >>> toNat amount)
  else throw .overflow

/-- The quotient, rounded up. -/
def divCeil (a b : α) : WordM α := do
  if toNat b = 0 then
    throw .overflow
  let quotient ← exactly .overflow (toNat a / toNat b)
  if toNat a % toNat b = 0 then
    return quotient
  else
    exactly .overflow (toNat quotient + 1)

/-- The bits of two words that have none in common. -/
def union (a b : α) : WordM α :=
  exactly .overflow (toNat a ||| toNat b)

/-- The same number as a word of another type. -/
def convert (a : α) : WordM β :=
  exactly .truncation (toNat a)

end Word

/-! ### Lists with indices -/

namespace WordM

variable {α : Type}

/-- The indices below `count`. -/
def indices (count : Nat) : List USize :=
  (List.range count).map USize.ofNat

/-- The entry at an index. -/
def entry (entries : List α) (index : USize) : WordM α :=
  (entries[index.toNat]?).elim (throw .outOfBounds) pure

/-- The list with another entry at an index. -/
def setEntry (entries : List α) (index : USize) (value : α) : WordM (List α) :=
  if index.toNat < entries.length then pure (entries.set index.toNat value)
  else throw .outOfBounds

/-- Fills the first `count` entries of a list, the last of them first. -/
def fillDown (entries : List α) (count : Nat) (step : List α → USize → WordM α) :
    WordM (List α) :=
  (indices count).reverse.foldlM
    (fun entries index => do
      let value ← step entries index
      setEntry entries index value)
    entries

/-! ### Loops -/

/-- How often a loop runs that counts from one word to another, both included. -/
def countFrom {β : Type} [Word β] (first last : β) : Nat :=
  Word.toNat last + 1 - Word.toNat first

/-- Runs a step `count` times. -/
def times : (count : Nat) → (step : WordM Unit) → WordM Unit
  | 0, _ => pure ()
  | count + 1, step => do
    step
    times count step

/-- Runs a step `count` times and lists its values after those in `done`. -/
def collectAfter (done : List α) : (count : Nat) → (step : WordM α) → WordM (List α)
  | 0, _ => pure done
  | count + 1, step => do
    let value ← step
    collectAfter (done ++ [value]) count step

/-- Runs a step `count` times and lists its values. -/
def collect (count : Nat) (step : WordM α) : WordM (List α) :=
  collectAfter [] count step

end WordM

/-! ### What is computed -/

/-- `Computes step post` says that a step reads nothing, does not stop, and has a value as `post`
tells. -/
def Computes {α : Type} (step : WordM α) (post : α → Prop) : Prop :=
  ∃ value, step = pure value ∧ post value

section

variable {α β : Type}

/-- A value that is right is computed at once. -/
theorem computes_pure {value : α} {post : α → Prop} (h : post value) :
    Computes (pure value) post :=
  ⟨value, rfl, h⟩

/-- A sequence computes what its last step computes of what the first one has computed. -/
theorem Computes.bind {step : WordM α} {next : α → WordM β} {post : α → Prop} {last : β → Prop}
    (h : Computes step post) (hnext : ∀ value, post value → Computes (next value) last) :
    Computes (step >>= next) last := by
  obtain ⟨value, rfl, hvalue⟩ := h
  rw [pure_bind]
  exact hnext value hvalue

/-- Less may be said of what is computed. -/
theorem Computes.mono {step : WordM α} {post last : α → Prop} (h : Computes step post)
    (hmono : ∀ value, post value → last value) : Computes step last := by
  obtain ⟨value, hstep, hvalue⟩ := h
  exact ⟨value, hstep, hmono value hvalue⟩

end

namespace Word

variable {α β : Type} [Word α] [Word β]

/-- A number that is below the size of words is kept as it is. -/
theorem computes_exactly {stop : Stop} {n : Nat} (h : n < size α) :
    Computes (exactly stop n : WordM α) fun c => toNat c = n :=
  ⟨ofNat n, if_pos h, toNat_ofNat h⟩

/-- A sum that is below the size of words does not overflow. -/
theorem computes_add {a b : α} (h : toNat a + toNat b < size α) :
    Computes (add a b) fun c => toNat c = toNat a + toNat b :=
  computes_exactly h

-- Nothing wraps around.
example : add (255 : UInt8) 1 = throw .overflow := rfl

/-- A difference that is not negative does not overflow. -/
theorem computes_sub {a b : α} (h : toNat b ≤ toNat a) :
    Computes (sub a b) fun c => toNat c = toNat a - toNat b := by
  rw [sub, if_pos h]
  exact computes_exactly (Nat.lt_of_le_of_lt (Nat.sub_le _ _) (toNat_lt a))

/-- A product that is below the size of words does not overflow. -/
theorem computes_mul {a b : α} (h : toNat a * toNat b < size α) :
    Computes (mul a b) fun c => toNat c = toNat a * toNat b :=
  computes_exactly h

/-- A shift to the left that loses no bits is a product. -/
theorem computes_shiftLeft {a : α} {amount : β} (hbits : 2 ^ toNat amount < size α)
    (h : toNat a * 2 ^ toNat amount < size α) :
    Computes (shiftLeft a amount) fun c => toNat c = toNat a * 2 ^ toNat amount := by
  rw [shiftLeft, if_pos hbits, Nat.shiftLeft_eq]
  exact computes_exactly h

/-- A shift to the right by less than the width of the word. -/
theorem computes_shiftRight {a : α} {amount : β} (hbits : 2 ^ toNat amount < size α) :
    Computes (shiftRight a amount) fun c => toNat c = toNat a >>> toNat amount := by
  rw [shiftRight, if_pos hbits]
  refine computes_exactly (Nat.lt_of_le_of_lt ?_ (toNat_lt a))
  rw [Nat.shiftRight_eq_div_pow]
  exact Nat.div_le_self _ _

/-- Rounding up is adding all but one of the divisor first. -/
theorem computes_divCeil {a b : α} (h : 0 < toNat b) :
    Computes (divCeil a b) fun c => toNat c = (toNat a + toNat b - 1) / toNat b := by
  have hdiv := Nat.div_add_mod (toNat a) (toNat b)
  have hmod := Nat.mod_lt (toNat a) h
  have hquotient : toNat a / toNat b < size α :=
    Nat.lt_of_le_of_lt (Nat.div_le_self _ _) (toNat_lt a)
  rw [divCeil, if_neg (Nat.pos_iff_ne_zero.1 h)]
  refine (computes_exactly hquotient).bind fun quotient hvalue => ?_
  by_cases hexact : toNat a % toNat b = 0
  · rw [if_pos hexact]
    refine computes_pure ?_
    rw [hvalue]
    symm
    rw [Nat.div_eq_iff h]
    constructor <;> rw [Nat.mul_comm] <;> omega
  · rw [if_neg hexact, hvalue]
    have hsum : (toNat a + toNat b - 1) / toNat b = toNat a / toNat b + 1 := by
      rw [Nat.div_eq_iff h, Nat.add_mul, Nat.mul_comm (toNat a / toNat b)]
      constructor <;> omega
    rw [hsum]
    refine computes_exactly (Nat.lt_of_le_of_lt ?_ (toNat_lt a))
    have : toNat a / toNat b ≤ toNat b * (toNat a / toNat b) := Nat.le_mul_of_pos_left _ h
    omega

/-- A number and one that is to fill the lowest bits of it. -/
theorem computes_union {a b : α} {high width : Nat} (ha : toNat a = high * 2 ^ width)
    (hb : toNat b < 2 ^ width) (h : high * 2 ^ width + toNat b < size α) :
    Computes (union a b) fun c => toNat c = high * 2 ^ width + toNat b := by
  have hsum : toNat a ||| toNat b = high * 2 ^ width + toNat b := by
    rw [ha, Nat.mul_comm, Nat.two_pow_add_eq_or_of_lt hb]
  rw [union, hsum]
  exact computes_exactly h

/-- A conversion to words that are wide enough loses nothing. -/
theorem computes_convert {a : α} (h : toNat a < size β) :
    Computes (convert a : WordM β) fun c => toNat c = toNat a :=
  computes_exactly h

/-- A small number is added to a small index. -/
theorem computes_addIndex {index : USize} {n : Nat} (h : index.toNat + n < 4294967296) :
    Computes (add index (OfNat.ofNat n)) fun c => c.toNat = index.toNat + n := by
  have hn : toNat (OfNat.ofNat n : USize) = n := toNat_index n (by omega)
  have hsum : toNat index + toNat (OfNat.ofNat n : USize) = index.toNat + n := congrArg _ hn
  exact (computes_add (hsum ▸ lt_size_index h)).mono fun c hc => hc.trans hsum

end Word

namespace WordM

variable {α : Type}

/-- An entry that is there is looked up. -/
theorem computes_entry {entries : List α} {index : USize} {value : α}
    (h : entries[index.toNat]? = some value) : Computes (entry entries index) (· = value) :=
  ⟨value, by rw [entry, h]; rfl, rfl⟩

/-- An entry that is there is replaced. -/
theorem computes_setEntry {entries : List α} {index : USize} {value : α}
    (h : index.toNat < entries.length) :
    Computes (setEntry entries index value) (· = entries.set index.toNat value) :=
  ⟨_, if_pos h, rfl⟩

end WordM

end H266
