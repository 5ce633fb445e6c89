import LedgerLoad.Text.Blank
import LedgerLoad.Text.Fields
import LedgerLoad.Text.Utf8

/-!
Text whose bytes are in a named character set.
-/

set_option autoImplicit false

namespace LedgerLoad.Text

/-- Sets of one byte a character agree with ASCII in the lower half; the upper half is a list of 128 characters. -/
inductive Charset where
  | utf8
  | utf16 (bigEndian : Bool)
  | table (upper : Array Char)
deriving Repr

namespace Charset

def windows1252 : Array Char := ("€\u0081‚ƒ„…†‡ˆ‰Š‹Œ\u008dŽ\u008f\u0090‘’“”•–—˜™š›œ\u009džŸ" ++
  "\u00a0¡¢£¤¥¦§¨©ª«¬\u00ad®¯°±²³´µ¶·¸¹º»¼½¾¿" ++
  "ÀÁÂÃÄÅÆÇÈÉÊËÌÍÎÏÐÑÒÓÔÕÖ×ØÙÚÛÜÝÞß" ++
  "àáâãäåæçèéêëìíîïðñòóôõö÷øùúûüýþÿ").toList.toArray

def iso88592 : Array Char := ("\u0080\u0081\u0082\u0083\u0084\u0085\u0086\u0087\u0088\u0089\u008a\u008b\u008c\u008d\u008e\u008f\u0090\u0091\u0092\u0093\u0094\u0095\u0096\u0097\u0098\u0099\u009a\u009b\u009c\u009d\u009e\u009f" ++
  "\u00a0Ą˘Ł¤ĽŚ§¨ŠŞŤŹ\u00adŽŻ°ą˛ł´ľśˇ¸šşťź˝žż" ++
  "ŔÁÂĂÄĹĆÇČÉĘËĚÍÎĎĐŃŇÓÔŐÖ×ŘŮÚŰÜÝŢß" ++
  "ŕáâăäĺćçčéęëěíîďđńňóôőö÷řůúűüýţ˙").toList.toArray

def iso88595 : Array Char := ("\u0080\u0081\u0082\u0083\u0084\u0085\u0086\u0087\u0088\u0089\u008a\u008b\u008c\u008d\u008e\u008f\u0090\u0091\u0092\u0093\u0094\u0095\u0096\u0097\u0098\u0099\u009a\u009b\u009c\u009d\u009e\u009f" ++
  "\u00a0ЁЂЃЄЅІЇЈЉЊЋЌ\u00adЎЏАБВГДЕЖЗИЙКЛМНОП" ++
  "РСТУФХЦЧШЩЪЫЬЭЮЯабвгдежзийклмноп" ++
  "рстуфхцчшщъыьэюя№ёђѓєѕіїјљњћќ§ўџ").toList.toArray

def iso88597 : Array Char := ("\u0080\u0081\u0082\u0083\u0084\u0085\u0086\u0087\u0088\u0089\u008a\u008b\u008c\u008d\u008e\u008f\u0090\u0091\u0092\u0093\u0094\u0095\u0096\u0097\u0098\u0099\u009a\u009b\u009c\u009d\u009e\u009f" ++
  "\u00a0‘’£€₯¦§¨©ͺ«¬\u00ad\ufffd―°±²³΄΅Ά·ΈΉΊ»Ό½ΎΏ" ++
  "ΐΑΒΓΔΕΖΗΘΙΚΛΜΝΞΟΠΡ\ufffdΣΤΥΦΧΨΩΪΫάέήί" ++
  "ΰαβγδεζηθικλμνξοπρςστυφχψωϊϋόύώ\ufffd").toList.toArray

def iso885915 : Array Char := ("\u0080\u0081\u0082\u0083\u0084\u0085\u0086\u0087\u0088\u0089\u008a\u008b\u008c\u008d\u008e\u008f\u0090\u0091\u0092\u0093\u0094\u0095\u0096\u0097\u0098\u0099\u009a\u009b\u009c\u009d\u009e\u009f" ++
  "\u00a0¡¢£€¥Š§š©ª«¬\u00ad®¯°±²³Žµ¶·ž¹º»ŒœŸ¿" ++
  "ÀÁÂÃÄÅÆÇÈÉÊËÌÍÎÏÐÑÒÓÔÕÖ×ØÙÚÛÜÝÞß" ++
  "àáâãäåæçèéêëìíîïðñòóôõö÷øùúûüýþÿ").toList.toArray

def windows1250 : Array Char := ("€\u0081‚\u0083„…†‡\u0088‰Š‹ŚŤŽŹ\u0090‘’“”•–—\u0098™š›śťžź" ++
  "\u00a0ˇ˘Ł¤Ą¦§¨©Ş«¬\u00ad®Ż°±˛ł´µ¶·¸ąş»Ľ˝ľż" ++
  "ŔÁÂĂÄĹĆÇČÉĘËĚÍÎĎĐŃŇÓÔŐÖ×ŘŮÚŰÜÝŢß" ++
  "ŕáâăäĺćçčéęëěíîďđńňóôőö÷řůúűüýţ˙").toList.toArray

def windows1251 : Array Char := ("ЂЃ‚ѓ„…†‡€‰Љ‹ЊЌЋЏђ‘’“”•–—\u0098™љ›њќћџ" ++
  "\u00a0ЎўЈ¤Ґ¦§Ё©Є«¬\u00ad®Ї°±Ііґµ¶·ё№є»јЅѕї" ++
  "АБВГДЕЖЗИЙКЛМНОПРСТУФХЦЧШЩЪЫЬЭЮЯ" ++
  "абвгдежзийклмнопрстуфхцчшщъыьэюя").toList.toArray

def koi8r : Array Char := ("─│┌┐└┘├┤┬┴┼▀▄█▌▐░▒▓⌠■∙√≈≤≥\u00a0⌡°²·÷" ++
  "═║╒ё╓╔╕╖╗╘╙╚╛╜╝╞╟╠╡Ё╢╣╤╥╦╧╨╩╪╫╬©" ++
  "юабцдефгхийклмнопярстужвьызшэщчъ" ++
  "ЮАБЦДЕФГХИЙКЛМНОПЯРСТУЖВЬЫЗШЭЩЧЪ").toList.toArray

def named : List (List String × Charset) := [
  (["utf-8", "utf8", "unicode-1-1-utf-8", "unicode11utf8", "unicode20utf8", "x-unicode20utf8"], .utf8),
  (["utf-16", "utf-16le", "csunicode", "iso-10646-ucs-2", "ucs-2", "unicode", "unicodefeff"], .utf16 false),
  (["utf-16be", "unicodefffe"], .utf16 true),
  (["windows-1252", "ansi_x3.4-1968", "ascii", "cp1252", "cp819", "csisolatin1", "ibm819", "iso-8859-1", "iso-ir-100",
    "iso8859-1", "iso88591", "iso_8859-1", "iso_8859-1:1987", "l1", "latin1", "us-ascii", "x-cp1252"],
    .table windows1252),
  (["iso-8859-2", "csisolatin2", "iso-ir-101", "iso8859-2", "iso88592", "iso_8859-2", "iso_8859-2:1987", "l2",
    "latin2"], .table iso88592),
  (["iso-8859-5", "csisolatincyrillic", "cyrillic", "iso-ir-144", "iso8859-5", "iso88595", "iso_8859-5",
    "iso_8859-5:1988"], .table iso88595),
  (["iso-8859-7", "csisolatingreek", "ecma-118", "elot_928", "greek", "greek8", "iso-ir-126", "iso8859-7",
    "iso88597", "iso_8859-7", "iso_8859-7:1987", "sun_eu_greek"], .table iso88597),
  (["iso-8859-15", "csisolatin9", "iso8859-15", "iso885915", "iso_8859-15", "l9"], .table iso885915),
  (["windows-1250", "cp1250", "x-cp1250"], .table windows1250),
  (["windows-1251", "cp1251", "x-cp1251"], .table windows1251),
  (["koi8-r", "cskoi8r", "koi", "koi8", "koi8_r"], .table koi8r)]

def find? (name : List Char) : Option Charset :=
  let key := String.ofList (normalize name)
  (named.find? fun (names, _) => names.contains key).map Prod.snd

def units (bigEndian : Bool) : List UInt8 → List (Option Nat)
  | a :: b :: r =>
    some (if bigEndian then a.toNat * 256 + b.toNat else b.toNat * 256 + a.toNat) :: units bigEndian r
  | [_] => [none]
  | [] => []

def ofUnits : List (Option Nat) → List Char
  | some h :: some l :: r =>
    if 0xd800 ≤ h ∧ h < 0xdc00 ∧ 0xdc00 ≤ l ∧ l < 0xe000 then
      Char.ofNat (0x10000 + (h - 0xd800) * 0x400 + (l - 0xdc00)) :: ofUnits r
    else (if 0xd800 ≤ h ∧ h < 0xe000 then '\uFFFD' else Char.ofNat h) :: ofUnits (some l :: r)
  | some h :: r => (if 0xd800 ≤ h ∧ h < 0xe000 then '\uFFFD' else Char.ofNat h) :: ofUnits r
  | none :: _ => ['\uFFFD']
  | [] => []

def decodeTable (upper : Array Char) (bytes : List UInt8) : List Char :=
  bytes.map fun b => if b < 128 then Char.ofNat b.toNat else (upper[b.toNat - 128]?).getD '\uFFFD'

def decode (c : Charset) (bytes : List UInt8) : List Char :=
  match c with
  | .utf8 => Utf8.decodeLossy bytes
  | .utf16 bigEndian => ofUnits (units bigEndian bytes)
  | .table upper => decodeTable upper bytes

/-- A byte order mark at the front goes before any named set, and is dropped. -/
def decodeMarked (c : Charset) (bytes : List UInt8) : List Char :=
  match bytes with
  | 0xef :: 0xbb :: 0xbf :: r => decode .utf8 r
  | 0xff :: 0xfe :: r => decode (.utf16 false) r
  | 0xfe :: 0xff :: r => decode (.utf16 true) r
  | _ => c.decode bytes

end Charset

/-! ### Content types -/

def unquoted (s : List Char) : List Char :=
  match s with
  | '"' :: r => r.takeWhile (· != '"')
  | _ => s

def charsetOf (contentType : Option String) : Charset :=
  match contentType.map fun t => splitOn (· == ';') t.toList with
  | some (_ :: params) =>
    let found := params.findSome? fun p =>
      let (name, value) := p.span (· != '=')
      if normalize name = "charset".toList then some (unquoted (trim (value.drop 1))) else none
    ((found.bind Charset.find?).getD .utf8)
  | _ => .utf8

end LedgerLoad.Text
