import StackMachine.Proofs.Wire.Reading
import StackMachine.Wire.Image
import StackMachine.Wire.Limits
import StackMachine.Wire.Object

/-!
# What is stored can be restored

An image, a value and a set of limits come back from their stored forms, whatever follows
them, and no beginning of a stored form but the whole of it is the form of anything.

Lengths and numbers are stored as words of 64 bits.  Whatever a program holds has such
lengths and numbers; the types here do not bound them, so `Fits` says it.  Decoders of nested
things are given a depth to which they go, and a stored form is at least as long as what it
stores is deep.
-/

namespace StackMachine

open Wire

/-! ## Images -/

mutual

/-- The lengths in an image are words. -/
def CodeImage.Fits : Image → Prop
  | { file, bytecode, constants, names } =>
      file.utf8ByteSize < 2 ^ 64 ∧ bytecode.size < 2 ^ 64 ∧ constants.length < 2 ^ 64 ∧
        Constant.AllFit constants ∧ names.length < 2 ^ 64 ∧
        ∀ name ∈ names, name.utf8ByteSize < 2 ^ 64

/-- The lengths in a constant are words. -/
def Constant.Fits : Constant → Prop
  | .text value => value.utf8ByteSize < 2 ^ 64
  | .code image => CodeImage.Fits image
  | _ => True

/-- The lengths in some constants are words. -/
def Constant.AllFit : List Constant → Prop
  | [] => True
  | constant :: rest => Constant.Fits constant ∧ Constant.AllFit rest

end

theorem Constant.AllFit.all {constants : List Constant} (fit : AllFit constants) :
    ∀ constant ∈ constants, Fits constant := by
  induction constants with
  | nil => simp
  | cons constant rest ih => simpa [fit.1] using ih fit.2

theorem Constant.encodeAll_eq (constants : List Constant) :
    encodeAll constants = constants.flatMap encode := by
  induction constants with
  | nil => rfl
  | cons constant rest ih => rw [encodeAll, ih, List.flatMap_cons]

theorem Constant.decoder_reads {image : Decoder Image} {constant : Constant} (fits : constant.Fits)
    (nested : ∀ inner, constant = .code inner → Reads image inner.encode inner) :
    Reads (decoder image) constant.encode constant := by
  cases constant with
  | none => exact (nat32_reads (by decide)).map rfl
  | int value => exact (nat32_reads (by decide)).bind ((int64_reads value).map rfl)
  | float value => exact (nat32_reads (by decide)).bind ((double_reads value).map rfl)
  | text value => exact (nat32_reads (by decide)).bind ((text_reads fits).map rfl)
  | code inner => exact (nat32_reads (by decide)).bind ((nested inner rfl).map rfl)

theorem Constant.decoder_grows {image deeper : Decoder Image} (grows : Grows image deeper) :
    Grows (decoder image) (decoder deeper) :=
  nat32_grows.bind fun tag => by
    split
    · exact .pure _
    · exact int64_grows.bind fun _ => .pure _
    · exact double_grows.bind fun _ => .pure _
    · exact text_grows.bind fun _ => .pure _
    · exact grows.bind fun _ => .pure _
    · exact .throw _ _

/-- An image is longer in its stored form than the images among its constants. -/
theorem CodeImage.length_encode_lt {inner : Image} (image : Image)
    (member : .code inner ∈ image.constants) :
    inner.encode.length < image.encode.length := by
  obtain ⟨file, bytecode, constants, names⟩ := image
  have part : _ ≤ (constants.flatMap Constant.encode).length :=
    length_le_flatMap Constant.encode member
  have tag := length_encodeNat_pos 4
  rw [Constant.encode, List.length_append] at part
  simp only [CodeImage.encode, Constant.encodeAll_eq, List.length_append]
  omega

/-- An image is read back by a decoder that goes as deep as its stored form is long. -/
theorem CodeImage.decoder_reads (depth : Nat) (image : Image) (fits : image.Fits)
    (short : image.encode.length < depth) : Reads (decoder depth) image.encode image := by
  induction depth generalizing image with
  | zero => omega
  | succ depth ih =>
      obtain ⟨file, bytecode, constants, names⟩ := image
      obtain ⟨fileFits, bytecodeFits, constantsFit, allFit, namesFit, eachFits⟩ := fits
      have constantsRead : ∀ constant ∈ constants,
          Reads (Constant.decoder (decoder depth)) constant.encode constant := by
        intro constant member
        refine Constant.decoder_reads (allFit.all constant member) ?_
        rintro inner rfl
        have shorter := length_encode_lt ⟨file, bytecode, constants, names⟩ member
        exact ih inner (allFit.all _ member) (by omega)
      have form : encode ⟨file, bytecode, constants, names⟩ =
          encodeText file ++ (encodeBytes bytecode.toList ++
            ((encodeNat constants.length ++ constants.flatMap Constant.encode) ++
              (encodeNat names.length ++ names.flatMap encodeText))) := by
        simp only [encode, Constant.encodeAll_eq, List.append_assoc]
      rw [form]
      have bytecodeRead : Reads byteString (encodeBytes bytecode.toList) bytecode.toList :=
        byteString_reads bytecodeFits
      refine (text_reads fileFits).bind (bytecodeRead.bind ?_)
      refine (sequence_reads constantsFit constantsRead).bind ?_
      exact (sequence_reads namesFit fun name member => text_reads (eachFits name member)).map rfl

theorem CodeImage.decoder_grows {depth deeper : Nat} (deep : depth ≤ deeper) :
    Grows (decoder depth) (decoder deeper) := by
  induction depth generalizing deeper with
  | zero => exact .throw _ _
  | succ depth ih =>
      obtain ⟨deeper, rfl⟩ := Nat.exists_eq_add_of_le' (Nat.lt_of_lt_of_le depth.succ_pos deep)
      refine text_grows.bind fun file => byteString_grows.bind fun bytecode => ?_
      refine (sequence_grows (Constant.decoder_grows (ih (by omega)))).bind fun constants => ?_
      exact (sequence_grows text_grows).bind fun names => .pure _

/-! ## Values -/

namespace Object

mutual

/-- The lengths and numbers in a value are words. -/
def Fits : Object → Prop
  | none | int _ | float _ => True
  | string text | module text | repr text => text.utf8ByteSize < 2 ^ 64
  | list items | tuple items => items.length < 2 ^ 64 ∧ AllFit items
  | dict entries => entries.length < 2 ^ 64 ∧ EntriesFit entries
  | cycle slot text => slot < 2 ^ 64 ∧ text.utf8ByteSize < 2 ^ 64

/-- The lengths and numbers in some values are words. -/
def AllFit : List Object → Prop
  | [] => True
  | item :: rest => Fits item ∧ AllFit rest

/-- The lengths and numbers in some entries are words. -/
def EntriesFit : List (String × Object) → Prop
  | [] => True
  | entry :: rest => EntryFits entry ∧ EntriesFit rest

/-- The lengths and numbers in an entry are words. -/
def EntryFits : String × Object → Prop
  | (key, value) => key.utf8ByteSize < 2 ^ 64 ∧ Fits value

end

theorem AllFit.all {items : List Object} (fit : AllFit items) : ∀ item ∈ items, Fits item := by
  induction items with
  | nil => simp
  | cons item rest ih => simpa [fit.1] using ih fit.2

theorem EntriesFit.all {entries : List (String × Object)} (fit : EntriesFit entries) :
    ∀ entry ∈ entries, EntryFits entry := by
  induction entries with
  | nil => simp
  | cons entry rest ih =>
      rw [List.forall_mem_cons]
      exact ⟨fit.1, ih fit.2⟩

theorem encodeItems_eq (items : List Object) : encodeItems items = items.flatMap encode := by
  induction items with
  | nil => rfl
  | cons item rest ih => rw [encodeItems, ih, List.flatMap_cons]

theorem encodeEntries_eq (entries : List (String × Object)) :
    encodeEntries entries = entries.flatMap encodeEntry := by
  induction entries with
  | nil => rfl
  | cons entry rest ih => rw [encodeEntries, ih, List.flatMap_cons]

theorem entryDecoder_reads {decoder : Decoder Object} {key : String} {value : Object}
    (fits : key.utf8ByteSize < 2 ^ 64) (reads : Reads decoder value.encode value) :
    Reads (entryDecoder decoder) (encodeEntry (key, value)) (key, value) := by
  rw [encodeEntry]
  exact (text_reads fits).bind (reads.map rfl)

/-- A value is read back by a decoder that goes as deep as its stored form is long. -/
theorem decoder_reads (depth : Nat) (value : Object) (fits : value.Fits)
    (short : value.encode.length < depth) : Reads (decoder depth) value.encode value := by
  induction depth generalizing value with
  | zero => omega
  | succ depth ih =>
      have itemsRead : ∀ items : List Object, AllFit items →
          (items.flatMap encode).length < depth →
          ∀ item ∈ items, Reads (decoder depth) item.encode item :=
        fun items fit bound item member =>
          ih item (fit.all item member) (Nat.lt_of_le_of_lt (length_le_flatMap encode member) bound)
      cases value with
      | none => exact (nat32_reads (by decide)).map rfl
      | int value => exact (nat32_reads (by decide)).bind ((int64_reads value).map rfl)
      | float value => exact (nat32_reads (by decide)).bind ((double_reads value).map rfl)
      | string text => exact (nat32_reads (by decide)).bind ((text_reads fits).map rfl)
      | list items =>
          rw [encode, encodeItems_eq, List.append_assoc] at short ⊢
          simp only [List.length_append] at short
          have read := itemsRead items fits.2 (by have := length_encodeNat_pos 4; omega)
          exact (nat32_reads (by decide)).bind ((sequence_reads fits.1 read).map rfl)
      | tuple items =>
          rw [encode, encodeItems_eq, List.append_assoc] at short ⊢
          simp only [List.length_append] at short
          have read := itemsRead items fits.2 (by have := length_encodeNat_pos 5; omega)
          exact (nat32_reads (by decide)).bind ((sequence_reads fits.1 read).map rfl)
      | dict entries =>
          rw [encode, encodeEntries_eq, List.append_assoc] at short ⊢
          simp only [List.length_append] at short
          have read : ∀ entry ∈ entries,
              Reads (entryDecoder (decoder depth)) (encodeEntry entry) entry := by
            rintro ⟨key, value⟩ member
            obtain ⟨keyFits, valueFits⟩ := fits.2.all _ member
            have part := length_le_flatMap encodeEntry member
            rw [encodeEntry, List.length_append] at part
            have := length_encodeNat_pos 6
            exact entryDecoder_reads keyFits (ih value valueFits (by omega))
          exact (nat32_reads (by decide)).bind ((sequence_reads fits.1 read).map rfl)
      | module name => exact (nat32_reads (by decide)).bind ((text_reads fits).map rfl)
      | repr text => exact (nat32_reads (by decide)).bind ((text_reads fits).map rfl)
      | cycle slot text =>
          rw [encode, List.append_assoc]
          exact (nat32_reads (by decide)).bind
            ((nat64_reads fits.1).bind ((text_reads fits.2).map rfl))

theorem decoder_grows {depth deeper : Nat} (deep : depth ≤ deeper) :
    Grows (decoder depth) (decoder deeper) := by
  induction depth generalizing deeper with
  | zero => exact .throw _ _
  | succ depth ih =>
      obtain ⟨deeper, rfl⟩ := Nat.exists_eq_add_of_le' (Nat.lt_of_lt_of_le depth.succ_pos deep)
      have nested : Grows (decoder depth) (decoder deeper) := ih (by omega)
      have entry : Grows (entryDecoder (decoder depth)) (entryDecoder (decoder deeper)) :=
        text_grows.bind fun key => nested.bind fun value => .pure _
      refine nat32_grows.bind fun tag => ?_
      split
      · exact .pure _
      · exact int64_grows.bind fun _ => .pure _
      · exact double_grows.bind fun _ => .pure _
      · exact text_grows.bind fun _ => .pure _
      · exact (sequence_grows nested).bind fun _ => .pure _
      · exact (sequence_grows nested).bind fun _ => .pure _
      · exact (sequence_grows entry).bind fun _ => .pure _
      · exact text_grows.bind fun _ => .pure _
      · exact text_grows.bind fun _ => .pure _
      · exact nat64_grows.bind fun _ => text_grows.bind fun _ => .pure _
      · exact .throw _ _

end Object

/-! ## Limits -/

/-- A duration is a number of seconds that is a word, and less than a second. -/
structure Duration.Fits (span : Duration) : Prop where
  seconds : span.seconds < 2 ^ 64
  nanos : span.nanos < 1000000000

/-- The numbers of some limits are words. -/
structure Limits.Fits (limits : Limits) : Prop where
  operations : ∀ count ∈ limits.operations, count < 2 ^ 64
  allocations : ∀ count ∈ limits.allocations, count < 2 ^ 64
  duration : ∀ span ∈ limits.duration, Duration.Fits span
  memory : ∀ amount ∈ limits.memory, amount < 2 ^ 64
  recursion : ∀ depth ∈ limits.recursion, depth < 2 ^ 64

theorem Duration.decoder_reads {span : Duration} (fits : span.Fits) :
    Reads decoder span.encode span := by
  have nanosFit := fits.nanos
  refine (nat64_reads fits.seconds).bind ((nat32_reads (by omega)).map ?_)
  have secondsFit := fits.seconds
  have whole : span.nanos / 1000000000 = 0 := Nat.div_eq_of_lt nanosFit
  have part : span.nanos % 1000000000 = span.nanos := Nat.mod_eq_of_lt nanosFit
  simp only [whole, part, Nat.add_zero]
  exact if_pos secondsFit

theorem Duration.decoder_grows : Grows decoder decoder :=
  nat64_grows.bind fun seconds => nat32_grows.bind fun nanos => by
    dsimp only
    split
    · exact .pure _
    · exact .throw _ _

theorem Limits.decoder_reads {limits : Limits} (fits : limits.Fits) :
    Reads decoder limits.encode limits := by
  have number : ∀ {value : Option Nat}, (∀ count ∈ value, count < 2 ^ 64) →
      Reads (option nat64) (encodeOption encodeNat value) value :=
    fun fits => option_reads fun count member => nat64_reads (fits count member)
  rw [encode, List.append_assoc, List.append_assoc, List.append_assoc]
  refine (number fits.operations).bind ((number fits.allocations).bind ?_)
  refine (option_reads fun span member =>
    Duration.decoder_reads (fits.duration span member)).bind ?_
  exact (number fits.memory).bind ((number fits.recursion).map rfl)

theorem Limits.decoder_grows : Grows decoder decoder :=
  have number := option_grows nat64_grows
  number.bind fun _ => number.bind fun _ => (option_grows Duration.decoder_grows).bind fun _ =>
    number.bind fun _ => number.bind fun _ => .pure _

/-! ## Restoring what was stored -/

/-- A stored value comes back, whatever follows it, and only a whole stored form is the form
of anything. -/
structure RoundTrips {α : Type} (encode : α → List UInt8)
    (decode : List UInt8 → Except DecodeError α) (value : α) : Prop where
  restores : ∀ rest, decode (encode value ++ rest) = .ok value
  refuses : ∀ part, part <+: encode value → part ≠ encode value →
    ∃ error, decode part = .error error

/-- A decoder that is given a bound by the length of its input restores what it reads. -/
theorem RoundTrips.of_reads {α : Type} {encode : α → List UInt8} {value : α}
    (decoder : Nat → Decoder α)
    (reads : ∀ length, (encode value).length ≤ length → Reads (decoder length) (encode value) value)
    (grows : ∀ {length longer}, length ≤ longer → Grows (decoder length) (decoder longer)) :
    RoundTrips encode (fun input => Wire.decode (decoder input.length) input) value where
  restores rest := by
    have read := reads (encode value ++ rest).length (by simp) rest
    simp only [Wire.decode, StateT.run, read]
    rfl
  refuses part begins short := by
    cases ran : decoder part.length part with
    | error error => exact ⟨error, by simp only [Wire.decode, StateT.run, ran]; rfl⟩
    | ok found =>
        have longer := grows begins.length_le
        exact absurd (longer.eq_of_prefix (reads _ (Nat.le_refl _)) begins ran) short

/-- Images, values and limits come back from their stored forms, and from no part of them. -/
theorem stored_roundTrips :
    (∀ image : Image, image.Fits → RoundTrips CodeImage.encode CodeImage.decode image) ∧
    (∀ value : Object, value.Fits → RoundTrips Object.encode Object.decode value) ∧
    (∀ limits : Limits, limits.Fits → RoundTrips Limits.encode Limits.decode limits) := by
  refine ⟨fun image fits => ?_, fun value fits => ?_, fun limits fits => ?_⟩
  · exact .of_reads (fun length => CodeImage.decoder (length + 1))
      (fun length short => CodeImage.decoder_reads _ image fits (Nat.lt_succ_of_le short))
      fun longer => CodeImage.decoder_grows (Nat.succ_le_succ longer)
  · exact .of_reads (fun length => Object.decoder (length + 1))
      (fun length short => Object.decoder_reads _ value fits (Nat.lt_succ_of_le short))
      fun longer => Object.decoder_grows (Nat.succ_le_succ longer)
  · exact .of_reads (fun _ => Limits.decoder)
      (fun _ _ => Limits.decoder_reads fits) fun _ => Limits.decoder_grows

/-- An image of a module whose only function holds a number and a text, a value nested in itself,
and limits on everything come back. -/
theorem stored_roundTrips_nested :
    RoundTrips CodeImage.encode CodeImage.decode
      ⟨"m.py", #[100, 0, 0, 83],
        [.code ⟨"m.py", #[83], [.float Double.nan, .text "é"], []⟩, .int (-1)],
        ["f"]⟩ ∧
    RoundTrips Object.encode Object.decode
      (.dict [("items", .list [.cycle 19 "[...]", .tuple [.none]]), ("", .float Double.zero)]) ∧
    RoundTrips Limits.encode Limits.decode
      ⟨some 300, some 0, some ⟨1, 999999999⟩, some (2 ^ 64 - 1), none⟩ := by
  have short : ∀ text ∈ ["m.py", "é", "f", "items", "[...]", ""], text.utf8ByteSize < 2 ^ 64 := by
    decide
  refine ⟨stored_roundTrips.1 _ ?_, stored_roundTrips.2.1 _ ?_, stored_roundTrips.2.2 _ ?_⟩
  · simp_all [CodeImage.Fits, Constant.Fits, Constant.AllFit]
  · simp_all [Object.Fits, Object.AllFit, Object.EntriesFit, Object.EntryFits]
  · exact ⟨by simp, by simp, by simpa using ⟨by decide, by decide⟩, by simp, by simp⟩

end StackMachine
