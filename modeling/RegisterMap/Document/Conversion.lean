import RegisterMap.BitRange.Text
import RegisterMap.Document.Value
import RegisterMap.Model.AddressTemplate
import RegisterMap.Model.Register
import RegisterMap.Text.Digit

/-!
# Conversions

The values of some keys stand for a size, an access mode, a version, an extension, a bit range or
a pair of addresses. A conversion reads them, or tells why a value stands for none.
-/

namespace RegisterMap

/-- Why a value could not be converted. -/
inductive ConversionError where
  | unsupportedSize (value : Value)
  | notDecimal (text : String)
  | tooManyDigits (count : Nat)
  | unsupportedAddressSize (value : Value)
  | unsupportedAccess (text : String)
  | unknownVersion (text : String)
  | unknownExtension (text : String)
  | bitRange (error : BitRange.Error)
  | addressTemplate (error : AddressTemplate.Error)
  deriving Repr

/-- The quoted form of a text up to its 200th character, for errors to show. -/
def quotedStart (text : String) : String := String.ofList ((Text.quoted text).toList.take 200)

def ConversionError.message : ConversionError → String
  | unsupportedSize value =>
    s!"unsupported register size {value.plain}, supported register sizes are 8, 16, 32 and 64"
  | notDecimal text => s!"invalid literal for int() with base 10: {quotedStart text}"
  | tooManyDigits count => Numeral.tooManyDigits count
  | unsupportedAddressSize value =>
    s!"unsupported address size {value.form}, supported values are " ++
      s!"'{Description.nativeSize}', 8, 16, 32 and 64"
  | unsupportedAccess text =>
    s!"unsupported register access mode '{text}', supported modes are 'r', 'w' or 'rw'"
  | unknownVersion text => s!"unknown register description specification version '{text}'"
  | unknownExtension text => s!"unknown extension '{text}'"
  | bitRange error => error.message
  | addressTemplate error => error.message

namespace Conversion

/-! ### Sizes -/

/-- A size as a whole number. -/
def sizeOfInteger (n : Int) : Except ConversionError RegisterSize :=
  match RegisterSize.ofBits? n with
  | some size => .ok size
  | none => .error (.unsupportedSize (.integer n))

/-- A size as a whole number or as a text of digits. The decimal digits in front are counted before
anything is said of the other digits. -/
def size : Value → Except ConversionError RegisterSize
  | .integer n => sizeOfInteger n
  | .text s =>
    if !s.isEmpty && s.toList.all Text.isDigit then
      let count := (s.toList.takeWhile Text.isDecimal).length
      if Numeral.maxDigits < count then .error (.tooManyDigits count)
      else
        match Text.decimal? s.toList with
        | some n => sizeOfInteger n
        | none => .error (.notDecimal s)
    else .error (.unsupportedSize (.text s))
  | value => .error (.unsupportedSize value)

/-- A size, or nothing for the width of a native pointer. -/
def addressSize (value : Value) : Except ConversionError (Option RegisterSize) :=
  match value, size value with
  | .text s, result =>
    if s = Description.nativeSize then .ok none
    else result.map some |>.mapError fun _ => .unsupportedAddressSize value
  | _, result => result.map some |>.mapError fun _ => .unsupportedAddressSize value

/-! ### Texts -/

def access (text : String) : Except ConversionError AccessMode :=
  match AccessMode.ofText? text with
  | some mode => .ok mode
  | none => .error (.unsupportedAccess text)

def version (text : String) : Except ConversionError SpecVersion :=
  match SpecVersion.ofText? text with
  | some version => .ok version
  | none => .error (.unknownVersion text)

def extension (text : String) : Except ConversionError Extension :=
  match Extension.ofText? text with
  | some extension => .ok extension
  | none => .error (.unknownExtension text)

/-- A bit range, without the redundant spelling of a single bit. -/
def bitRange (text : String) : Except ConversionError BitRange :=
  (BitRange.read text true).mapError .bitRange

/-- The read and write addresses of a template. -/
def addresses (text : String) : Except ConversionError (Nat × Nat) :=
  (AddressTemplate.expand text).mapError .addressTemplate

end Conversion

end RegisterMap
