import Mathlib
import StackMachine.Wire.Basic

/-!
# What decoders read

A decoder reads some bytes as a value if it gives that value for them whatever follows, and
leaves what follows.  A sequence of decoders reads the sequence of their forms.

The bytes that a decoder took to give a value decide that value alone: `Grows` says that the
decoder, or one that may go deeper, reads just those bytes as it.  So a form that is read as a
value has no proper beginning that is read as anything.
-/

namespace StackMachine.Wire

variable {α β : Type}

/-- Whatever follows `form`, the decoder gives `value` and leaves what follows. -/
def Reads (decoder : Decoder α) (form : List UInt8) (value : α) : Prop :=
  ∀ rest, decoder (form ++ rest) = .ok (value, rest)

/-- The bytes that `first` takes for a value are bytes that `second` reads as it. -/
def Grows (first second : Decoder α) : Prop :=
  ∀ input value rest, first input = .ok (value, rest) →
    ∃ taken, input = taken ++ rest ∧ Reads second taken value

/-- What the first of two decoders reads is left to the second. -/
theorem bind_eq_ok {first : Decoder α} {next : α → Decoder β} {input : List UInt8} {value : β}
    {rest : List UInt8} :
    (first >>= next) input = .ok (value, rest) ↔
      ∃ found left, first input = .ok (found, left) ∧ next found left = .ok (value, rest) := by
  change ((first input).bind fun found => next found.1 found.2) = _ ↔ _
  cases first input with
  | error error => simp [Except.bind]
  | ok found =>
      obtain ⟨found, left⟩ := found
      simp [Except.bind, and_assoc]

namespace Reads

theorem pure (value : α) : Reads (Pure.pure value) [] value :=
  fun _ => rfl

theorem bind {first : Decoder α} {next : α → Decoder β} {form following : List UInt8}
    {found : α} {value : β} (reads : Reads first form found)
    (continues : Reads (next found) following value) :
    Reads (first >>= next) (form ++ following) value := fun rest =>
  bind_eq_ok.2 ⟨found, following ++ rest, by rw [List.append_assoc, reads], continues rest⟩

/-- A decoder whose last step gives its result as it is. -/
theorem map {first : Decoder α} {next : α → Decoder β} {form : List UInt8} {found : α} {value : β}
    (reads : Reads first form found) (returns : next found = Pure.pure value) :
    Reads (first >>= next) form value := by
  have both : Reads (first >>= next) (form ++ []) value := reads.bind (returns ▸ Reads.pure value)
  rwa [List.append_nil] at both

end Reads

namespace Grows

theorem pure (value : α) : Grows (Pure.pure value) (Pure.pure value) := by
  intro input found rest ran
  cases ran
  exact ⟨[], rfl, Reads.pure value⟩

theorem throw (error : DecodeError) (second : Decoder α) : Grows (throw error) second := by
  intro input value rest ran
  cases ran

theorem bind {first second : Decoder α} {next deeper : α → Decoder β} (grows : Grows first second)
    (continues : ∀ found, Grows (next found) (deeper found)) :
    Grows (first >>= next) (second >>= deeper) := by
  intro input value rest ran
  obtain ⟨found, left, ranFirst, ranNext⟩ := bind_eq_ok.1 ran
  obtain ⟨taken, rfl, reads⟩ := grows _ _ _ ranFirst
  obtain ⟨following, rfl, readsNext⟩ := continues found _ _ _ ranNext
  exact ⟨taken ++ following, (List.append_assoc ..).symm, reads.bind readsNext⟩

/-- A form that is read as a value has no other beginning that is read as one. -/
theorem eq_of_prefix {first second : Decoder α} (grows : Grows first second)
    {form part rest : List UInt8} {value found : α} (reads : Reads second form value)
    (begins : part <+: form) (ran : first part = .ok (found, rest)) : part = form := by
  obtain ⟨missing, rfl⟩ := begins
  obtain ⟨taken, rfl, again⟩ := grows _ _ _ ran
  have whole := reads []
  rw [List.append_nil, List.append_assoc, again] at whole
  obtain ⟨rfl, nothing⟩ : found = value ∧ rest ++ missing = [] := by simpa using whole
  simp [(List.append_eq_nil_iff.1 nothing).2]

end Grows

/-! ## Bytes -/

theorem byte_reads (first : UInt8) : Reads byte [first] first :=
  fun _ => rfl

theorem byte_grows : Grows byte byte := by
  intro input value rest ran
  cases input with
  | nil => cases ran
  | cons first input =>
      cases ran
      exact ⟨[value], rfl, byte_reads value⟩

theorem bytes_reads (content : List UInt8) : Reads (bytes content.length) content content := by
  intro rest
  simp [bytes]

theorem bytes_grows (count : Nat) : Grows (bytes count) (bytes count) := by
  intro input value rest ran
  simp only [bytes] at ran
  split at ran
  case isTrue short => cases ran
  case isFalse enough =>
    cases ran
    have length : (input.take count).length = count :=
      Nat.le_antisymm (List.length_take_le ..) (Nat.le_of_not_lt enough)
    exact ⟨input.take count, (List.take_append_drop ..).symm,
      by simpa only [length] using bytes_reads (input.take count)⟩

/-! ## Numbers -/

/-- A number is read back if its bytes are as many as are allowed, and the last of them is
small enough where it is the last that is allowed. -/
theorem nat_reads {top : Nat} (small : top < 128) (length number : Nat)
    (fits : number < (top + 1) * 128 ^ length) :
    Reads (nat top (length + 1)) (encodeNat number) number := by
  induction length generalizing number with
  | zero =>
      have bound : number ≤ top := by omega
      rw [encodeNat, if_pos (by omega)]
      refine (byte_reads _).map ?_
      have byte : (UInt8.ofNat number).toNat = number := by simp; omega
      simp [byte, show number < 128 by omega, Nat.not_lt.2 bound]
  | succ length ih =>
      rw [encodeNat]
      split
      case isTrue last =>
        refine (byte_reads _).map ?_
        have byte : (UInt8.ofNat number).toNat = number := by simp; omega
        simp [byte, last]
      case isFalse more =>
        have byte : (UInt8.ofNat (number % 128 + 128)).toNat = number % 128 + 128 := by simp; omega
        have higher : number / 128 < (top + 1) * 128 ^ length := by
          rw [Nat.div_lt_iff_lt_mul (by decide), Nat.mul_assoc, ← Nat.pow_succ]
          exact fits
        show Reads _ ([_] ++ encodeNat (number / 128)) number
        refine (byte_reads _).bind ?_
        simp only [byte, show ¬ number % 128 + 128 < 128 by omega, if_false]
        refine (ih _ higher).map ?_
        rw [Nat.add_sub_cancel, Nat.mod_add_div]

theorem length_encodeNat_pos (number : Nat) : 0 < (encodeNat number).length := by
  rw [encodeNat]
  split <;> simp

theorem nat_grows (top : Nat) : ∀ length, Grows (nat top length) (nat top length)
  | 0 => .throw _ _
  | length + 1 => by
      refine byte_grows.bind fun first => ?_
      split
      · split
        · exact .throw _ _
        · exact .pure _
      · exact (nat_grows top length).bind fun _ => .pure _

theorem nat64_reads {number : Nat} (fits : number < 2 ^ 64) :
    Reads nat64 (encodeNat number) number :=
  nat_reads (by decide) 9 number (by simpa using fits)

theorem nat64_grows : Grows nat64 nat64 :=
  nat_grows 1 10

theorem nat32_reads {number : Nat} (fits : number < 2 ^ 32) :
    Reads nat32 (encodeNat number) number :=
  nat_reads (by decide) 4 number (by simpa using fits)

theorem nat32_grows : Grows nat32 nat32 :=
  nat_grows 15 5

theorem unfold_fold (number : Int) : unfold (fold number) = number := by
  unfold fold unfold
  split <;> split <;> omega

theorem fold_lt (value : Int64) : fold value.toInt < 2 ^ 64 := by
  have low := value.le_toInt
  have high := value.toInt_lt
  unfold fold
  split <;> omega

theorem int64_reads (value : Int64) : Reads int64 (encodeInt64 value) value :=
  (nat64_reads (fold_lt value)).map (by rw [unfold_fold, Int64.ofInt_toInt])

theorem int64_grows : Grows int64 int64 :=
  nat64_grows.bind fun _ => .pure _

@[simp] theorem length_littleEndian (count number : Nat) :
    (littleEndian count number).length = count := by
  induction count generalizing number with
  | zero => rfl
  | succ count ih => simp [littleEndian, ih]

theorem ofLittleEndian_littleEndian (count number : Nat) (fits : number < 256 ^ count) :
    ofLittleEndian (littleEndian count number) = number := by
  induction count generalizing number with
  | zero => simpa [littleEndian, ofLittleEndian] using (Nat.lt_one_iff.1 fits).symm
  | succ count ih =>
      have higher : number / 256 < 256 ^ count := by
        rw [Nat.div_lt_iff_lt_mul (by decide), ← Nat.pow_succ]
        exact fits
      rw [littleEndian, ofLittleEndian, ih _ higher, UInt8.toNat_ofNat']
      exact Nat.mod_add_div number 256

theorem double_reads (value : Double) : Reads double (encodeDouble value) value := by
  have content := bytes_reads (littleEndian 8 value.bits.toNat)
  rw [length_littleEndian] at content
  refine content.map ?_
  rw [ofLittleEndian_littleEndian _ _ value.bits.toNat_lt, UInt64.ofNat_toNat]

theorem double_grows : Grows double double :=
  (bytes_grows 8).bind fun _ => .pure _

/-! ## Texts, sequences and optional values -/

theorem byteString_reads {content : List UInt8} (fits : content.length < 2 ^ 64) :
    Reads byteString (encodeBytes content) content :=
  (nat64_reads fits).bind (bytes_reads content)

theorem byteString_grows : Grows byteString byteString :=
  nat64_grows.bind bytes_grows

theorem text_reads {content : String} (fits : content.utf8ByteSize < 2 ^ 64) :
    Reads text (encodeText content) content := by
  refine (byteString_reads (by simpa using fits)).map ?_
  have decoded : String.fromUTF8? ⟨content.toUTF8.data.toList.toArray⟩ = some content := by
    simp only [Array.toArray_toList, String.fromUTF8?, String.toUTF8_eq_toByteArray]
    exact dif_pos content.isValidUTF8
  rw [decoded]

theorem text_grows : Grows text text :=
  byteString_grows.bind fun content => by
    split
    · exact .pure _
    · exact .throw _ _

theorem replicate_reads {decoder : Decoder α} {encode : α → List UInt8} {items : List α}
    (reads : ∀ item ∈ items, Reads decoder (encode item) item) :
    Reads (replicate decoder items.length) (items.flatMap encode) items := by
  induction items with
  | nil => exact .pure []
  | cons item items ih =>
      have rest := ih fun other member => reads other (List.mem_cons_of_mem item member)
      exact (reads item List.mem_cons_self).bind (rest.map rfl)

theorem replicate_grows {first second : Decoder α} (grows : Grows first second) :
    ∀ count, Grows (replicate first count) (replicate second count)
  | 0 => .pure _
  | count + 1 => grows.bind fun _ => (replicate_grows grows count).bind fun _ => .pure _

theorem sequence_reads {decoder : Decoder α} {encode : α → List UInt8} {items : List α}
    (fits : items.length < 2 ^ 64) (reads : ∀ item ∈ items, Reads decoder (encode item) item) :
    Reads (sequence decoder) (encodeNat items.length ++ items.flatMap encode) items :=
  (nat64_reads fits).bind (replicate_reads reads)

theorem sequence_grows {first second : Decoder α} (grows : Grows first second) :
    Grows (sequence first) (sequence second) :=
  nat64_grows.bind (replicate_grows grows)

/-- The form of an item is no longer than the forms of all of them. -/
theorem length_le_flatMap (encode : α → List UInt8) {item : α} {items : List α}
    (member : item ∈ items) : (encode item).length ≤ (items.flatMap encode).length := by
  rw [List.flatMap_def]
  exact (List.sublist_flatten_of_mem (List.mem_map_of_mem member)).length_le

theorem option_reads {decoder : Decoder α} {encode : α → List UInt8} {value : Option α}
    (reads : ∀ item ∈ value, Reads decoder (encode item) item) :
    Reads (option decoder) (encodeOption encode value) value := by
  cases value with
  | none => exact (byte_reads 0).map rfl
  | some item => exact (byte_reads 1).bind ((reads item rfl).map rfl)

theorem option_grows {decoder : Decoder α} (grows : Grows decoder decoder) :
    Grows (option decoder) (option decoder) :=
  byte_grows.bind fun first => by
    split
    · exact .pure _
    · exact grows.bind fun _ => .pure _
    · exact .throw _ _

end StackMachine.Wire
