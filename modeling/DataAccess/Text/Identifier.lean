import DataAccess.Text.Letter

/-!
This module contains the characters of identifiers in generated code.
-/

namespace DataAccess.Text

def nonStartRanges : Ranges :=
  [(0x37A, 0x37A), (0xE33, 0xE33), (0xEB3, 0xEB3), (0x2E2F, 0x2E2F), (0xFC5E, 0xFC63),
   (0xFDFA, 0xFDFB), (0xFE70, 0xFE70), (0xFE72, 0xFE72), (0xFE74, 0xFE74), (0xFE76, 0xFE76),
   (0xFE78, 0xFE78), (0xFE7A, 0xFE7A), (0xFE7C, 0xFE7C), (0xFE7E, 0xFE7E), (0xFF9E, 0xFF9F)]

def extraStartRanges : Ranges :=
  [(0x1885, 0x1886), (0x2118, 0x2118), (0x212E, 0x212E)]

def extraContinueRanges : Ranges :=
  [(0xB7, 0xB7), (0x387, 0x387), (0xE33, 0xE33), (0xEB3, 0xEB3), (0x1369, 0x1371),
   (0x19DA, 0x19DA), (0x200C, 0x200D), (0x203F, 0x2040), (0x2054, 0x2054), (0x30FB, 0x30FB),
   (0xFE33, 0xFE34), (0xFE4D, 0xFE4F), (0xFF3F, 0xFF3F), (0xFF65, 0xFF65), (0xFF9E, 0xFF9F)]

def startsIdent (c : Char) : Bool :=
  c == '_' || c.isAlpha || letterRanges.has c && !nonStartRanges.has c || extraStartRanges.has c

def continuesIdent (c : Char) : Bool :=
  startsIdent c || c.isDigit || isMark c || digitRanges.has c || extraContinueRanges.has c

end DataAccess.Text
