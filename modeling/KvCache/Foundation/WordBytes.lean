import Mathlib.Data.List.Basic
import Mathlib.Data.Nat.Notation

/-!
# Words and buffers in a byte string

A header of 32-bit words, least significant byte first, and behind it buffers whose sizes the
header names. Words and buffers are read back whatever follows them.
-/

namespace KvCache.WordBytes

/-- The four bytes of a word. -/
def wordBytes (word : Nat) : List UInt8 :=
  [UInt8.ofNat word, UInt8.ofNat (word / 0x100), UInt8.ofNat (word / 0x10000),
    UInt8.ofNat (word / 0x1000000)]

/-- The word that bytes begin with. -/
def readWord : List UInt8 → Nat
  | a :: b :: c :: d :: _ => a.toNat + b.toNat * 0x100 + c.toNat * 0x10000 + d.toNat * 0x1000000
  | _ => 0

/-- The words that bytes begin with. -/
def readWords : Nat → List UInt8 → List Nat
  | 0, _ => []
  | count + 1, bytes => readWord bytes :: readWords count (bytes.drop 4)

@[simp] theorem wordBytes_length (word : Nat) : (wordBytes word).length = 4 := rfl

theorem words_length (words : List Nat) : (words.flatMap wordBytes).length = 4 * words.length := by
  induction words with
  | nil => rfl
  | cons word words inductionHypothesis =>
    rw [List.flatMap_cons, List.length_append, inductionHypothesis, wordBytes_length,
      List.length_cons]
    omega

theorem readWord_wordBytes {word : Nat} (small : word < 0x100000000) (rest : List UInt8) :
    readWord (wordBytes word ++ rest) = word := by
  change (UInt8.ofNat word).toNat + (UInt8.ofNat (word / 0x100)).toNat * 0x100 +
    (UInt8.ofNat (word / 0x10000)).toNat * 0x10000 +
    (UInt8.ofNat (word / 0x1000000)).toNat * 0x1000000 = word
  rw [UInt8.toNat_ofNat', UInt8.toNat_ofNat', UInt8.toNat_ofNat', UInt8.toNat_ofNat']
  omega

/-- Words are read back. -/
theorem readWords_words {words : List Nat} (small : ∀ word ∈ words, word < 0x100000000)
    (rest : List UInt8) : readWords words.length (words.flatMap wordBytes ++ rest) = words := by
  induction words with
  | nil => rfl
  | cons word words inductionHypothesis =>
    rw [List.flatMap_cons, List.append_assoc, List.length_cons, readWords,
      readWord_wordBytes (small word List.mem_cons_self),
      List.drop_left' (wordBytes_length word),
      inductionHypothesis fun other member => small other (.tail _ member)]

/-- Buffers of the given sizes, one behind the other from a position on. -/
def slices (bytes : List UInt8) : Nat → List Nat → List (List UInt8)
  | _, [] => []
  | position, size :: sizes =>
    (bytes.drop position).take size :: slices bytes (position + size) sizes

/-- Buffers are read back from behind a header. -/
theorem slices_flatten (header rest : List UInt8) (buffers : List (List UInt8)) :
    slices (header ++ (buffers.flatten ++ rest)) header.length (buffers.map List.length) =
      buffers := by
  induction buffers generalizing header with
  | nil => rfl
  | cons buffer buffers inductionHypothesis =>
    have later := inductionHypothesis (header ++ buffer)
    rw [List.length_append, List.append_assoc, ← List.append_assoc buffer] at later
    rw [List.map_cons, slices, List.flatten_cons, later, List.drop_left, List.append_assoc,
      List.take_left]

/-- What is missing to a multiple of a unit. -/
def padding (unit size : Nat) : Nat := (unit - size % unit) % unit

end KvCache.WordBytes
