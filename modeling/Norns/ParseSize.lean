import Norns.Config
import Norns.Lib.Rounding

/-! # Sizes in the configuration

`utils::parse_size` takes the white space out of its argument and looks for one suffix after the
other, anywhere in the text; the first one that is found and is the tail of the text is the unit.
The number before it goes through `std::stod`, and the product with the factor of the unit is formed
in a `double`.

* `parse_size_grammar`: which texts are accepted, and with which factor.
* `configured_numbers_iff`: which numbers survive the floating-point arithmetic and the narrowing
  conversions on their way into the settings and the namespaces.

All numbers here are integers without a sign.  A `double` is the natural number that it stands for;
an infinite product is not told apart from a large one, since neither can be converted. -/

namespace Norns

open Lib

/-! ### The function -/

def B_FACTOR : ℕ := 1
def KB_FACTOR : ℕ := 1000
def KiB_FACTOR : ℕ := 1 <<< 10
def MB_FACTOR : ℕ := 1000000
def MiB_FACTOR : ℕ := 1 <<< 20
def GB_FACTOR : ℕ := 1000000000
def GiB_FACTOR : ℕ := 1 <<< 30

/-- `conversions`. -/
def conversions : List (List Char × ℕ) :=
  [(['G', 'i', 'B'], GiB_FACTOR), (['G', 'B'], GB_FACTOR), (['G'], GB_FACTOR),
    (['M', 'i', 'B'], MiB_FACTOR), (['M', 'B'], MB_FACTOR), (['M'], MB_FACTOR),
    (['K', 'i', 'B'], KiB_FACTOR), (['K', 'B'], KB_FACTOR), (['K'], KB_FACTOR),
    (['B'], B_FACTOR)]

/-- `std::string::find`. -/
def stringFind (suffix : List Char) : List Char → Option ℕ
  | [] => if suffix.isEmpty then some 0 else none
  | c :: text =>
      if suffix.isPrefixOf (c :: text) then some 0 else (stringFind suffix text).map (· + 1)

/-- The loop over the conversions: `pos`, which is `none` for `std::string::npos`, and `factor`. -/
def findUnits (scopy : List Char) : List (List Char × ℕ) → Option ℕ × ℕ
  | [] => (none, B_FACTOR)
  | (suffix, factor) :: rest =>
      match stringFind suffix scopy with
      | none => findUnits scopy rest
      | some pos => if suffix ≠ scopy.drop pos then findUnits scopy rest else (some pos, factor)

/-- `scopy.substr(0, pos)`. -/
def numberStr (scopy : List Char) : Option ℕ → List Char
  | none => scopy
  | some pos => scopy.take pos

/-- What `parse_size` returns or throws.  The conversion of a `double` to `uint64_t` is undefined
from `2 ^ 64` on. -/
inductive SizeResult where
  | size (n : UInt64)
  | undefined (value : ℕ)
  | invalidArgument
  | outOfRange
deriving DecidableEq, Repr

/-- The value of a sequence of digits. -/
def digitsValue (digits : List Char) : ℕ :=
  digits.foldl (fun n c => 10 * n + (c.toNat - '0'.toNat)) 0

/-- The significand of a `double` has 53 bits. -/
def doubleBits : ℕ := 53

/-- `std::stod` of a number: it throws if the number is too large for a `double`. -/
def stod (n : ℕ) : Option ℕ :=
  if roundBits doubleBits n < 2 ^ 1024 then some (roundBits doubleBits n) else none

/-- The conversion of a `double` to `uint64_t`. -/
def toUInt64 (value : ℕ) : SizeResult :=
  if value < 2 ^ 64 then .size (UInt64.ofNat value) else .undefined value

/-- `std::stod` and the multiplication; `std::round` does nothing to an integer. -/
def scale (n factor : ℕ) : SizeResult :=
  match stod n with
  | none => .outOfRange
  | some value => toUInt64 (roundBits doubleBits (value * factor))

/-- The text without white space. -/
def removeSpace (str : String) : List Char := str.toList.filter fun ch => !isSpace ch

/-- `utils::parse_size`. -/
def parseSize (str : String) : SizeResult :=
  let scopy := removeSpace str
  let (pos, factor) := findUnits scopy conversions
  let number := numberStr scopy pos
  if number.isEmpty || !number.all Char.isDigit then .invalidArgument
  else scale (digitsValue number) factor

/-! ### The grammar -/

inductive Magnitude where
  | kilo
  | mega
  | giga
deriving DecidableEq, Repr

def Magnitude.letter : Magnitude → Char
  | .kilo => 'K'
  | .mega => 'M'
  | .giga => 'G'

def Magnitude.exponent : Magnitude → ℕ
  | .kilo => 1
  | .mega => 2
  | .giga => 3

/-- What may stand after the digits. -/
inductive SizeSuffix where
  | nothing
  | byte
  | short (m : Magnitude)
  | decimal (m : Magnitude)
  | binary (m : Magnitude)
deriving DecidableEq, Repr

def SizeSuffix.text : SizeSuffix → List Char
  | .nothing => []
  | .byte => ['B']
  | .short m => [m.letter]
  | .decimal m => [m.letter, 'B']
  | .binary m => [m.letter, 'i', 'B']

/-- The factor of a suffix. -/
def SizeSuffix.factor : SizeSuffix → ℕ
  | .nothing | .byte => 1
  | .short m | .decimal m => 1000 ^ m.exponent
  | .binary m => 1024 ^ m.exponent

/-- The text, without its white space, is a number and a suffix. -/
structure IsSize (str : String) (digits : List Char) (suffix : SizeSuffix) : Prop where
  nonempty : digits ≠ []
  digit : ∀ c ∈ digits, c.isDigit = true
  text : removeSpace str = digits ++ suffix.text

/-! ### Finding the unit -/

/-- A suffix that starts with a letter is not found among the digits. -/
theorem stringFind_digits {digits text : List Char} {c : Char} {suffix : List Char}
    (hdigits : ∀ d ∈ digits, d.isDigit = true) (hc : c.isDigit = false) :
    stringFind (c :: suffix) (digits ++ text) =
      (stringFind (c :: suffix) text).map (· + digits.length) := by
  induction digits with
  | nil => simp
  | cons d digits ih =>
      have hne : c ≠ d := by
        rintro rfl
        rw [hdigits c List.mem_cons_self] at hc
        cases hc
      rw [List.cons_append, stringFind, ih fun d' h => hdigits d' (List.mem_cons_of_mem _ h)]
      simp [hne, Function.comp_def, Nat.add_assoc]

/-- The suffixes of a list of conversions start with letters. -/
def LetterFirst (convs : List (List Char × ℕ)) : Prop :=
  ∀ conv ∈ convs, conv.1.head?.any (fun c => !c.isDigit) = true

instance (convs : List (List Char × ℕ)) : Decidable (LetterFirst convs) :=
  inferInstanceAs (Decidable (∀ conv ∈ convs, _))

/-- The digits before a text only move the position. -/
theorem findUnits_digits {digits : List Char} (text : List Char)
    (hdigits : ∀ d ∈ digits, d.isDigit = true) {convs : List (List Char × ℕ)}
    (hconvs : LetterFirst convs) :
    findUnits (digits ++ text) convs =
      ((findUnits text convs).1.map (· + digits.length), (findUnits text convs).2) := by
  induction convs with
  | nil => rfl
  | cons conv convs ih =>
      obtain ⟨suffix, factor⟩ := conv
      have ih := ih fun conv h => hconvs conv (List.mem_cons_of_mem _ h)
      have hfirst := hconvs _ List.mem_cons_self
      cases suffix with
      | nil => simp at hfirst
      | cons c suffix =>
          have hc : c.isDigit = false := by simpa using hfirst
          rw [findUnits, findUnits, stringFind_digits hdigits hc]
          cases stringFind (c :: suffix) text with
          | none => exact ih
          | some pos =>
              have hdrop : (digits ++ text).drop (pos + digits.length) = text.drop pos := by
                simp [List.drop_append]
              simp only [Option.map_some, hdrop]
              split_ifs
              · exact ih
              · rfl

/-- A position that the loop stops at is where the suffix of a conversion starts. -/
theorem mem_of_findUnits {scopy : List Char} {convs : List (List Char × ℕ)} {pos factor : ℕ}
    (h : findUnits scopy convs = (some pos, factor)) : (scopy.drop pos, factor) ∈ convs := by
  induction convs with
  | nil => cases h
  | cons conv convs ih =>
      obtain ⟨suffix, factor'⟩ := conv
      rw [findUnits] at h
      split at h
      · exact List.mem_cons_of_mem _ (ih h)
      · split_ifs at h with hsuffix
        · exact List.mem_cons_of_mem _ (ih h)
        · cases h
          rw [← not_not.mp hsuffix]
          exact List.mem_cons_self

/-- The loop on a suffix alone. -/
theorem findUnits_suffix (suffix : SizeSuffix) :
    findUnits suffix.text conversions =
      (if suffix = .nothing then none else some 0, suffix.factor) := by
  cases suffix with
  | nothing => decide
  | byte => decide
  | short m => cases m <;> decide
  | decimal m => cases m <;> decide
  | binary m => cases m <;> decide

/-- The conversions are those of the grammar. -/
theorem exists_suffix_of_mem {text : List Char} {factor : ℕ} (h : (text, factor) ∈ conversions) :
    ∃ suffix : SizeSuffix, suffix.text = text := by
  have hall : ∀ conv ∈ conversions, conv.1 ∈ [SizeSuffix.binary .giga, .decimal .giga,
      .short .giga, .binary .mega, .decimal .mega, .short .mega, .binary .kilo, .decimal .kilo,
      .short .kilo, .byte].map SizeSuffix.text := by decide
  obtain ⟨suffix, -, htext⟩ := List.mem_map.mp (hall _ h)
  exact ⟨suffix, htext⟩

/-! ### The accepted texts -/

/-- The unit and the number that are found in a text of the grammar. -/
theorem IsSize.findUnits_eq {str : String} {digits : List Char} {suffix : SizeSuffix}
    (h : IsSize str digits suffix) :
    (findUnits (removeSpace str) conversions).2 = suffix.factor ∧
      numberStr (removeSpace str) (findUnits (removeSpace str) conversions).1 = digits := by
  have hunits := findUnits_digits suffix.text h.digit (by decide : LetterFirst conversions)
  rw [findUnits_suffix] at hunits
  rw [h.text, hunits]
  refine ⟨rfl, ?_⟩
  dsimp only
  split_ifs with hnothing
  · rw [hnothing]
    exact List.append_nil digits
  · simp [numberStr]

theorem IsSize.parseSize_eq {str : String} {digits : List Char} {suffix : SizeSuffix}
    (h : IsSize str digits suffix) : parseSize str = scale (digitsValue digits) suffix.factor := by
  obtain ⟨hfactor, hnumber⟩ := h.findUnits_eq
  have hempty : digits.isEmpty = false := List.isEmpty_eq_false_iff.mpr h.nonempty
  have hall : digits.all Char.isDigit = true := List.all_eq_true.mpr h.digit
  unfold parseSize
  simp only [hfactor, hnumber, hempty, hall, Bool.not_true, Bool.or_false, Bool.false_eq_true,
    if_false]

/-- A text that is not refused is one of the grammar. -/
theorem exists_isSize {str : String} (h : parseSize str ≠ .invalidArgument) :
    ∃ digits suffix, IsSize str digits suffix := by
  unfold parseSize at h
  dsimp only at h
  split_ifs at h with hbad
  · exact absurd rfl h
  rw [Bool.or_eq_true, not_or, List.isEmpty_iff, Bool.not_eq_true', Bool.not_eq_false,
    List.all_eq_true] at hbad
  cases hunits : findUnits (removeSpace str) conversions with
  | mk pos factor =>
      rw [hunits] at hbad
      cases pos with
      | none => exact ⟨_, .nothing, hbad.1, hbad.2, (List.append_nil _).symm⟩
      | some pos =>
          obtain ⟨suffix, htext⟩ := exists_suffix_of_mem (mem_of_findUnits hunits)
          refine ⟨_, suffix, hbad.1, hbad.2, ?_⟩
          rw [htext]
          exact (List.take_append_drop pos _).symm

theorem scale_ne_invalidArgument (n factor : ℕ) : scale n factor ≠ .invalidArgument := by
  unfold scale toUInt64
  split
  · exact nofun
  · split_ifs <;> exact nofun

/-- `parse_size` accepts the texts of the grammar, and applies the factor of the suffix to the
number. -/
theorem parse_size_grammar (str : String) :
    (parseSize str ≠ .invalidArgument ↔ ∃ digits suffix, IsSize str digits suffix) ∧
      ∀ digits suffix, IsSize str digits suffix →
        (findUnits (removeSpace str) conversions).2 = suffix.factor ∧
          parseSize str = scale (digitsValue digits) suffix.factor := by
  refine ⟨⟨exists_isSize, ?_⟩, fun digits suffix h => ⟨h.findUnits_eq.1, h.parseSize_eq⟩⟩
  rintro ⟨digits, suffix, h⟩
  rw [h.parseSize_eq]
  exact scale_ne_invalidArgument _ _

/-- White space inside of a unit. -/
theorem spaced_unit_accepted :
    parseSize "3 K i B" ≠ .invalidArgument ∧ parseSize "3 K i B" = scale 3 1024 := by
  have h : IsSize "3 K i B" ['3'] (.binary .kilo) :=
    ⟨by decide, List.all_eq_true.mp (by decide), by decide +kernel⟩
  exact ⟨(parse_size_grammar "3 K i B").1.mpr ⟨_, _, h⟩,
    ((parse_size_grammar "3 K i B").2 _ _ h).2⟩

/-! ### Exact sizes -/

/-- The number that a text stands for is returned if it fits, and refused otherwise. -/
def ExactOrRejected (str : String) (size : ℕ) : Prop :=
  if size < 2 ^ 64 then parseSize str = .size (UInt64.ofNat size)
  else parseSize str = .invalidArgument ∨ parseSize str = .outOfRange

/-- The size has a significand of 53 bits or, if it does not fit, the number is too large even for a
`double`. -/
def FitsDouble (n factor : ℕ) : Prop :=
  if n * factor < 2 ^ 64 then Representable doubleBits (n * factor) else 2 ^ 1024 ≤ n + 2 ^ 970

theorem SizeSuffix.factor_pos (suffix : SizeSuffix) : 0 < suffix.factor := by
  cases suffix with
  | nothing => exact Nat.one_pos
  | byte => exact Nat.one_pos
  | short m => exact Nat.pow_pos (by decide)
  | decimal m => exact Nat.pow_pos (by decide)
  | binary m => exact Nat.pow_pos (by decide)

theorem stod_eq_none_iff {n : ℕ} : stod n = none ↔ 2 ^ 1024 ≤ n + 2 ^ 970 := by
  have hbits : doubleBits + 1 + 970 = 1024 := rfl
  have hoverflow := two_pow_le_roundBits_iff (p := doubleBits) (n := n) (d := 970) (by decide)
  rw [hbits] at hoverflow
  rw [← hoverflow, stod]
  split_ifs with hlt
  · exact iff_of_false nofun (Nat.not_le.mpr hlt)
  · exact iff_of_true rfl (Nat.not_lt.mp hlt)

/-- A number of 64 bits is in the range of a `double`. -/
theorem stod_eq_some {n : ℕ} (h : n < 2 ^ 64) : stod n = some (roundBits doubleBits n) := by
  have hsome : stod n ≠ none := by
    rw [ne_eq, stod_eq_none_iff, Nat.not_le]
    exact add_two_pow_lt h (by decide) (by decide)
  unfold stod at hsome ⊢
  split_ifs at hsome ⊢
  · rfl
  · exact absurd rfl hsome

theorem toUInt64_eq_size_iff {value size : ℕ} (hsize : size < 2 ^ 64) :
    toUInt64 value = .size (UInt64.ofNat size) ↔ value = size := by
  unfold toUInt64
  split_ifs with hvalue
  · rw [SizeResult.size.injEq]
    constructor
    · intro h
      have hnat := congrArg UInt64.toNat h
      rwa [UInt64.toNat_ofNat_of_lt' hvalue, UInt64.toNat_ofNat_of_lt' hsize] at hnat
    · rintro rfl
      rfl
  · exact iff_of_false nofun fun h => hvalue (h ▸ hsize)

/-- When the product in floating point is the product. -/
theorem scale_eq_size_iff {n factor : ℕ} (hfactor : 0 < factor) (h : n * factor < 2 ^ 64) :
    scale n factor = .size (UInt64.ofNat (n * factor)) ↔ Representable doubleBits (n * factor) := by
  have hn : n < 2 ^ 64 := lt_of_le_of_lt (Nat.le_mul_of_pos_right n hfactor) h
  unfold scale
  rw [stod_eq_some hn]
  dsimp only
  rw [toUInt64_eq_size_iff h]
  exact roundBits_mul_eq_iff (by decide) hfactor

theorem scale_eq_outOfRange_iff {n factor : ℕ} :
    scale n factor = .outOfRange ↔ 2 ^ 1024 ≤ n + 2 ^ 970 := by
  rw [← stod_eq_none_iff]
  unfold scale toUInt64
  split
  · simp_all
  · split_ifs <;> simp_all

/-- A size string is exact or refused exactly under this condition. -/
theorem IsSize.exact_iff {str : String} {digits : List Char} {suffix : SizeSuffix}
    (h : IsSize str digits suffix) :
    ExactOrRejected str (digitsValue digits * suffix.factor) ↔
      FitsDouble (digitsValue digits) suffix.factor := by
  unfold ExactOrRejected FitsDouble
  rw [h.parseSize_eq]
  split_ifs with hlt
  · exact scale_eq_size_iff suffix.factor_pos hlt
  · rw [or_iff_right (scale_ne_invalidArgument _ _)]
    exact scale_eq_outOfRange_iff

/-! ### Numbers in a configuration -/

/-- The environment of the configuration code with this `parse_size`; `undefinedSize` is what the
machine makes of a conversion that is undefined. -/
def sizeEnv (pathExists : String → Except ErrorCode Bool) (nullText : Option String)
    (undefinedSize : ℕ → UInt64) : ConfigEnv where
  pathExists := pathExists
  parseSize str :=
    match Norns.parseSize str with
    | .size n => some n
    | .undefined value => some (undefinedSize value)
    | .invalidArgument | .outOfRange => none
  nullText := nullText

/-- The argument `quota` with which `urd::load_default_namespaces` has the namespace created. -/
def NamespaceDef.quota (nsdef : NamespaceDef) : UInt32 := nsdef.capacity.toUInt32

/-- The text is the size `size`. -/
def WrittenSize (text : String) (size : ℕ) : Prop :=
  ∃ digits suffix, IsSize text digits suffix ∧ size = digitsValue digits * suffix.factor

/-- The text is the number `n`, possibly with blanks around it and with a sign. -/
def WrittenNumber (text : String) (n : ℕ) : Prop :=
  ∃ before sign digits after, text.toList = before ++ (sign ++ (digits ++ after)) ∧
    (∀ c ∈ before, isSpace c = true) ∧ (sign = [] ∨ sign = ['+']) ∧ digits ≠ [] ∧
    (∀ c ∈ digits, c.isDigit = true) ∧ (∀ c ∈ after, isSpace c = true) ∧ n = digitsValue digits

/-- A document has been loaded into the settings `old`.  The values in the new settings, and the
quotas of the namespaces that have been added, are the numbers in the document. -/
structure NumbersInEffect (global : Texts) (tss : List Texts) (old s : Settings) : Prop where
  logFileMaxSize : ∀ text, global.lookup "log_file_max_size" = some text →
    WrittenSize text s.logFileMaxSize.toNat
  remotePort : ∀ text, global.lookup "remote_port" = some text →
    WrittenNumber text s.remotePort.toNat
  namespaces : ∃ nss, s.defaultNamespaces = old.defaultNamespaces ++ nss ∧
    List.Forall₂ (fun ts nsdef => ∀ text, ts.lookup "capacity" = some text →
      WrittenSize text nsdef.capacity.toNat ∧ WrittenSize text nsdef.quota.toNat) tss nss

/-- The sizes in the document have 32 bits, and the port has 16. -/
structure NumbersFit (global : Texts) (tss : List Texts) : Prop where
  logFileMaxSize : ∀ text, global.lookup "log_file_max_size" = some text →
    ∃ size < 2 ^ 32, WrittenSize text size
  remotePort : ∀ text, global.lookup "remote_port" = some text → ∃ port < 2 ^ 16,
    WrittenNumber text port
  namespaces : ∀ ts ∈ tss, ∀ text, ts.lookup "capacity" = some text →
    ∃ size < 2 ^ 32, WrittenSize text size

section numbers

variable {pathExists : String → Except ErrorCode Bool} {nullText : Option String}
  {undefinedSize : ℕ → UInt64}

/-- A size of 32 bits is read exactly. -/
theorem WrittenSize.parseCapacity {text : String} {size : ℕ} (h : WrittenSize text size)
    (hsize : size < 2 ^ 32) (name : String) :
    parseCapacity (sizeEnv pathExists nullText undefinedSize) name text =
      .ok (UInt64.ofNat size) := by
  obtain ⟨digits, suffix, hisSize, rfl⟩ := h
  have hrepr : Representable doubleBits (digitsValue digits * suffix.factor) :=
    representable_of_lt (hsize.trans (by decide))
  have hparse := (scale_eq_size_iff suffix.factor_pos (hsize.trans (by decide))).mpr hrepr
  unfold Norns.parseCapacity sizeEnv
  dsimp only
  rw [hisSize.parseSize_eq, hparse]

/-- A size of 32 bits survives the conversion to `uint32_t`. -/
theorem WrittenSize.parseCapacity32 {text : String} {size : ℕ} (h : WrittenSize text size)
    (hsize : size < 2 ^ 32) (name : String) :
    parseCapacity32 (sizeEnv pathExists nullText undefinedSize) name text =
      .ok (UInt64.ofNat size).toUInt32 := by
  rw [Norns.parseCapacity32, h.parseCapacity hsize]
  rfl

theorem toNat_toUInt32_ofNat {size : ℕ} (h : size < 2 ^ 32) :
    (UInt64.ofNat size).toUInt32.toNat = size := by
  rw [UInt64.toNat_toUInt32, UInt64.toNat_ofNat_of_lt' (h.trans (by decide))]
  exact Nat.mod_eq_of_lt h

theorem toNat_toUInt16_ofNat {port : ℕ} (h : port < 2 ^ 16) :
    (UInt32.ofNat port).toUInt16.toNat = port := by
  rw [UInt32.toNat_toUInt16, UInt32.toNat_ofNat_of_lt' (h.trans (by decide))]
  exact Nat.mod_eq_of_lt h

theorem isSpace_of_isDigit {c : Char} (h : c.isDigit = true) : isSpace c = false := by
  simp only [Char.isDigit, ge_iff_le, Bool.and_eq_true, decide_eq_true_eq] at h
  have hge : 48 ≤ c.val.toNat := UInt32.le_iff_toNat_le.mp h.1
  unfold isSpace
  simp only [Bool.or_eq_false_iff, decide_eq_false_iff_not, Bool.and_eq_false_imp,
    decide_eq_true_eq]
  refine ⟨?_, fun _ hle => ?_⟩
  · rintro rfl
    exact absurd hge (by decide)
  · have hle' : c.val.toNat ≤ 13 := UInt32.le_iff_toNat_le.mp hle
    omega

/-- The digits of a number as `stoi` adds them up. -/
theorem foldl_digits_cast (digits : List Char) (n : ℕ) :
    digits.foldl (fun (n : ℤ) c => 10 * n + (c.toNat - '0'.toNat : ℕ)) (n : ℤ) =
      (digits.foldl (fun n c => 10 * n + (c.toNat - '0'.toNat)) n : ℕ) := by
  induction digits generalizing n with
  | nil => rfl
  | cons c digits ih =>
      rw [List.foldl_cons, List.foldl_cons, ← ih]
      push_cast
      rfl

/-- `stoi` reads a number of 31 bits. -/
theorem WrittenNumber.stoi {text : String} {n : ℕ} (h : WrittenNumber text n) (hn : n < 2 ^ 31) :
    stoi text = some (n : ℤ) := by
  obtain ⟨before, sign, digits, after, htext, hbefore, hsign, hne, hdigits, hafter, rfl⟩ := h
  have htake : (digits ++ after).takeWhile Char.isDigit = digits := by
    rw [List.takeWhile_append_of_pos hdigits]
    have hnil : after.takeWhile Char.isDigit = [] := by
      cases after with
      | nil => rfl
      | cons c after =>
          have hc : c.isDigit ≠ true := by
            intro hc
            have hspace := hafter c List.mem_cons_self
            rw [isSpace_of_isDigit hc] at hspace
            cases hspace
          simp [hc]
    rw [hnil, List.append_nil]
  obtain ⟨d, rest, rfl⟩ := List.exists_cons_of_ne_nil hne
  have hd := hdigits d List.mem_cons_self
  have hfold : (d :: rest).foldl (fun (n : ℤ) c => 10 * n + (c.toNat - '0'.toNat : ℕ)) 0 =
      (digitsValue (d :: rest) : ℕ) := foldl_digits_cast (d :: rest) 0
  have hrange : (-2 ^ 31 : ℤ) ≤ (digitsValue (d :: rest) : ℕ) ∧
      ((digitsValue (d :: rest) : ℕ) : ℤ) < 2 ^ 31 := ⟨by omega, by exact_mod_cast hn⟩
  unfold Norns.stoi
  rw [htext, List.dropWhile_append_of_pos hbefore]
  rcases hsign with rfl | rfl
  · have hminus : d ≠ '-' := by rintro rfl; cases hd
    have hplus : d ≠ '+' := by rintro rfl; cases hd
    rw [List.nil_append, List.cons_append,
      List.dropWhile_cons_of_neg (by simp [isSpace_of_isDigit hd])]
    rw [List.cons_append] at htake
    simp only [List.cons.injEq, hminus, hplus, false_and, imp_self, implies_true, htake, hfold,
      reduceCtorEq, if_false, Bool.false_eq_true, if_pos hrange]
  · rw [List.cons_append, List.dropWhile_cons_of_neg (by decide), List.nil_append]
    simp only [htake, hfold, reduceCtorEq, if_false, Bool.false_eq_true, if_pos hrange]

/-- `parse_number` reads a number of 31 bits, unless it is zero. -/
theorem WrittenNumber.parseNumber {text : String} {n : ℕ} (h : WrittenNumber text n)
    (hn : n < 2 ^ 31) (hpos : 0 < n) (name : String) :
    parseNumber name text = .ok (UInt32.ofNat n) := by
  unfold Norns.parseNumber
  rw [h.stoi hn]
  dsimp only
  rw [if_neg (by omega), Int.toNat_natCast]

theorem valueOr_ok {α : Type} {convert : String → String → Except ConfigException α} {texts : Texts}
    {name text : String} {a : α} (hlookup : texts.lookup name = some text)
    (hconvert : convert name text = .ok a) (old : α) : valueOr convert old texts name = a := by
  rw [valueOr, hlookup]
  simp [hconvert, Except.toOption]

/-- A port that has been read is positive. -/
theorem port_pos {env : ConfigEnv} {global : Texts} (h : Converts (globalSettingsSchema env) global)
    {text : String} {n : ℕ} (hlookup : global.lookup "remote_port" = some text)
    (hnumber : WrittenNumber text n) (hn : n < 2 ^ 31) : 0 < n := by
  obtain ⟨before, after, hglobal, -⟩ := List.lookup_eq_some_iff.mp hlookup
  have hmem : ("remote_port", text) ∈ global := by
    rw [hglobal]
    exact List.mem_append_right _ List.mem_cons_self
  have hconv := h _ hmem
  rcases Nat.eq_zero_or_pos n with rfl | hpos
  · have herror : (convertText (globalSettingsSchema env) ("remote_port", text)) = none := by
      show (((Norns.parseNumber "remote_port" text).map OptionValue.uint32).toOption) = none
      rw [Norns.parseNumber, hnumber.stoi hn]
      rfl
    rw [herror] at hconv
    cases hconv
  · exact hpos

variable {doc : YamlNode} {global : Texts} {tss : List Texts} {s s' : Settings}

/-- The numbers in a document that is loaded are in effect exactly if they fit. -/
theorem numbersInEffect_iff
    (hload : s.loadFromFile (sizeEnv pathExists nullText undefinedSize) doc = (.ok (), s'))
    (hreads : Reads (sizeEnv pathExists nullText undefinedSize) doc global (some tss)) :
    NumbersInEffect global tss s s' ↔ NumbersFit global tss := by
  obtain ⟨global', tss', hreads', -, rfl⟩ := loadFromFile_ok hload
  obtain ⟨rfl, heq⟩ := hreads.unique hreads'
  obtain rfl := Option.some.inj heq
  constructor
  · rintro ⟨hlog, hport, nss, hnss, hall⟩
    obtain rfl := List.append_cancel_left hnss
    rw [List.forall₂_map_right_iff, List.forall₂_same] at hall
    exact ⟨fun text h => ⟨_, UInt32.toNat_lt _, hlog text h⟩,
      fun text h => ⟨_, UInt16.toNat_lt _, hport text h⟩,
      fun ts hts text h => ⟨_, UInt32.toNat_lt _, (hall ts hts text h).2⟩⟩
  · rintro ⟨hlog, hport, hall⟩
    refine ⟨fun text h => ?_, fun text h => ?_, _, rfl, ?_⟩
    · obtain ⟨size, hsize, hwritten⟩ := hlog text h
      rw [Settings.addNamespaces, Settings.withGlobals]
      dsimp only
      rw [valueOr_ok h (hwritten.parseCapacity32 hsize _), toNat_toUInt32_ofNat hsize]
      exact hwritten
    · obtain ⟨port, hlt, hwritten⟩ := hport text h
      have hlt' : port < 2 ^ 31 := hlt.trans (by decide)
      have hpos := port_pos hreads.converts h hwritten hlt'
      rw [Settings.addNamespaces, Settings.withGlobals]
      dsimp only
      rw [valueOr_ok h (hwritten.parseNumber hlt' hpos _), toNat_toUInt16_ofNat hlt]
      exact hwritten
    · rw [List.forall₂_map_right_iff, List.forall₂_same]
      intro ts hts text h
      obtain ⟨size, hsize, hwritten⟩ := hall ts hts text h
      rw [NamespaceDef.quota, namespaceDef]
      dsimp only
      rw [valueOr_ok h (hwritten.parseCapacity hsize _), toNat_toUInt32_ofNat hsize,
        UInt64.toNat_ofNat_of_lt' (hsize.trans (by decide))]
      exact ⟨hwritten, hwritten⟩

end numbers

/-- A size is exact or refused exactly if its significand has 53 bits or the number is out of the
range of a `double`; the numbers of a document that is loaded are in effect exactly if its sizes
have 32 bits and its port is a number of 16 bits. -/
theorem configured_numbers_iff (pathExists : String → Except ErrorCode Bool)
    (nullText : Option String) (undefinedSize : ℕ → UInt64) :
    (∀ str digits suffix, IsSize str digits suffix →
      (ExactOrRejected str (digitsValue digits * suffix.factor) ↔
        FitsDouble (digitsValue digits) suffix.factor)) ∧
    ∀ s s' doc global tss,
      Settings.loadFromFile s (sizeEnv pathExists nullText undefinedSize) doc = (.ok (), s') →
      Reads (sizeEnv pathExists nullText undefinedSize) doc global (some tss) →
      (NumbersInEffect global tss s s' ↔ NumbersFit global tss) :=
  ⟨fun _ _ _ h => h.exact_iff, fun _ _ _ _ _ hload hreads => numbersInEffect_iff hload hreads⟩

/-- The global settings of a document with these numbers. -/
def numberedGlobals (logSize port : String) : Texts :=
  [("use_syslog", "0"), ("log_file_max_size", logSize), ("global_socket", "/g"),
    ("control_socket", "/c"), ("bind_address", "::1"), ("remote_port", port), ("pidfile", "/p"),
    ("workers", "4"), ("staging_directory", "/tmp")]

/-- The namespace of a document with these numbers. -/
def numberedNamespace (capacity : String) : Texts :=
  [("nsid", "tmp"), ("track_contents", "0"), ("mountpoint", "/tmp"), ("type", "posix"),
    ("capacity", capacity), ("visibility", "public")]

/-- A document with a size for the log file, a port and a namespace with a capacity. -/
def numberedDocument (logSize port capacity : String) : YamlNode :=
  .map [(.scalar "global_settings", .sequence [textsNode (numberedGlobals logSize port)]),
    (.scalar "namespaces", .sequence [.sequence [textsNode (numberedNamespace capacity)]])]

/-- All paths exist, and an undefined conversion gives zero. -/
def zeroEnv : ConfigEnv := sizeEnv (fun _ => .ok true) none fun _ => 0

theorem reads_numberedDocument (logSize port capacity : String)
    (hglobals : Converts (globalSettingsSchema zeroEnv) (numberedGlobals logSize port))
    (hnamespace : Converts (namespacesSchema zeroEnv) (numberedNamespace capacity)) :
    Reads zeroEnv (numberedDocument logSize port capacity) (numberedGlobals logSize port)
      (some [numberedNamespace capacity]) := by
  refine ⟨⟨_, rfl, rfl⟩, hglobals, ?_, ⟨_, rfl, rfl⟩, fun ts hts => ?_⟩
  · unfold Complete globalSettingsSchema numberedGlobals
    simp [declareOption, declareString]
  · rw [List.mem_singleton.mp hts]
    exact hnamespace

/-- A document whose numbers fit. -/
theorem numbers_that_fit :
    NumbersInEffect (numberedGlobals "16 MiB" "42000") [numberedNamespace "4 GB"] defaultSettings
      (defaultSettings.loadFromFile zeroEnv (numberedDocument "16 MiB" "42000" "4 GB")).2 := by
  have hload : (defaultSettings.loadFromFile zeroEnv
      (numberedDocument "16 MiB" "42000" "4 GB")).1 = .ok () := by decide +kernel
  have hreads := reads_numberedDocument "16 MiB" "42000" "4 GB" (by decide +kernel)
    (by decide +kernel)
  refine ((configured_numbers_iff _ _ _).2 _ _ _ _ _ (accepted_of_ok hload) hreads).mpr ⟨?_, ?_, ?_⟩
  · rintro text h
    obtain rfl : "16 MiB" = text := Option.some.inj h
    exact ⟨16 * 1024 ^ 2, by decide, ['1', '6'], .binary .mega,
      ⟨by decide, List.all_eq_true.mp (by decide), by decide +kernel⟩, by decide +kernel⟩
  · rintro text h
    obtain rfl : "42000" = text := Option.some.inj h
    exact ⟨42000, by decide, [], [], "42000".toList, [], rfl, nofun, .inl rfl,
      by decide, List.all_eq_true.mp (by decide), nofun, by decide +kernel⟩
  · intro ts hts text h
    obtain rfl := List.mem_singleton.mp hts
    obtain rfl : "4 GB" = text := Option.some.inj h
    exact ⟨4 * 1000 ^ 3, by decide, ['4'], .decimal .giga,
      ⟨by decide, List.all_eq_true.mp (by decide), by decide +kernel⟩, by decide +kernel⟩

/-- A size above `2 ^ 53` is rounded, and a port and sizes that do not fit are cut off. -/
theorem numbers_cut_off :
    (IsSize "9007199254740993" "9007199254740993".toList .nothing ∧
      parseSize "9007199254740993" = .size 9007199254740992 ∧
      ¬ ExactOrRejected "9007199254740993" 9007199254740993) ∧
    ∃ s, defaultSettings.loadFromFile zeroEnv (numberedDocument "4 GiB" "65537" "4 GiB") =
        (.ok (), s) ∧
      s.logFileMaxSize = 0 ∧ s.remotePort = 1 ∧ s.defaultNamespaces.map NamespaceDef.quota = [0] ∧
      ¬ NumbersInEffect (numberedGlobals "4 GiB" "65537") [numberedNamespace "4 GiB"]
        defaultSettings s := by
  have hone : (defaultSettings.loadFromFile zeroEnv
      (numberedDocument "4 GiB" "65537" "4 GiB")).2.remotePort = 1 := by decide +kernel
  refine ⟨⟨⟨by decide, List.all_eq_true.mp (by decide), by decide +kernel⟩, by decide +kernel, ?_⟩,
    _, accepted_of_ok (by decide +kernel), by decide +kernel, hone, by decide +kernel, ?_⟩
  · have hparse : parseSize "9007199254740993" ≠ .size (UInt64.ofNat 9007199254740993) := by
      decide +kernel
    rw [ExactOrRejected, if_pos (by decide)]
    exact hparse
  · intro h
    have hport := h.remotePort "65537" rfl
    rw [hone] at hport
    have hstoi : stoi "65537" = some ((1 : ℕ) : ℤ) := hport.stoi (by decide)
    exact absurd hstoi (by decide)

end Norns
