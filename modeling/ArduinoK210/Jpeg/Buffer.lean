import ArduinoK210.Lib.PrefixCode

/-! The tables of the JPEG encoder and its output buffer: bytes go to the end, and bits are collected in the high end of a window of 24
bits until there are eight of them. The window keeps what has left it above its top. -/

namespace ArduinoK210.Jpeg

/-- A `uint16_t` pair: some bits, and how many of them. -/
abbrev BitString := Nat × Nat

def zigZag : List Nat := [
    0, 1, 5, 6, 14, 15, 27, 28,
    2, 4, 7, 13, 16, 26, 29, 42,
    3, 8, 12, 17, 25, 30, 41, 43,
    9, 11, 18, 24, 31, 40, 44, 53,
    10, 19, 23, 32, 39, 45, 52, 54,
    20, 22, 33, 38, 46, 51, 55, 60,
    21, 34, 37, 47, 50, 56, 59, 61,
    35, 36, 48, 49, 57, 58, 62, 63]

def yqt : List Nat := [
    16, 11, 10, 16, 24, 40, 51, 61,
    12, 12, 14, 19, 26, 58, 60, 55,
    14, 13, 16, 24, 40, 57, 69, 56,
    14, 17, 22, 29, 51, 87, 80, 62,
    18, 22, 37, 56, 68, 109, 103, 77,
    24, 35, 55, 64, 81, 104, 113, 92,
    49, 64, 78, 87, 103, 121, 120, 101,
    72, 92, 95, 98, 112, 100, 103, 99]

def uvqt : List Nat := [
    17, 18, 24, 47, 99, 99, 99, 99,
    18, 21, 26, 66, 99, 99, 99, 99,
    24, 26, 56, 99, 99, 99, 99, 99,
    47, 66, 99, 99, 99, 99, 99, 99,
    99, 99, 99, 99, 99, 99, 99, 99,
    99, 99, 99, 99, 99, 99, 99, 99,
    99, 99, 99, 99, 99, 99, 99, 99,
    99, 99, 99, 99, 99, 99, 99, 99]

def stdDcLuminanceNrcodes : List Nat := [
    0, 0, 1, 5, 1, 1, 1, 1, 1, 1, 0, 0, 0, 0, 0, 0, 0]

def stdDcLuminanceValues : List Nat := [
    0, 1, 2, 3, 4, 5, 6, 7, 8, 9, 10, 11]

def stdAcLuminanceNrcodes : List Nat := [
    0, 0, 2, 1, 3, 3, 2, 4, 3, 5, 5, 4, 4, 0, 0, 1, 0x7d]

def stdAcLuminanceValues : List Nat := [
    0x01, 0x02, 0x03, 0x00, 0x04, 0x11, 0x05, 0x12, 0x21, 0x31, 0x41, 0x06, 0x13, 0x51, 0x61, 0x07, 0x22, 0x71,
    0x14, 0x32, 0x81, 0x91, 0xa1, 0x08, 0x23, 0x42, 0xb1, 0xc1, 0x15, 0x52, 0xd1, 0xf0, 0x24, 0x33, 0x62, 0x72,
    0x82, 0x09, 0x0a, 0x16, 0x17, 0x18, 0x19, 0x1a, 0x25, 0x26, 0x27, 0x28, 0x29, 0x2a, 0x34, 0x35, 0x36, 0x37,
    0x38, 0x39, 0x3a, 0x43, 0x44, 0x45, 0x46, 0x47, 0x48, 0x49, 0x4a, 0x53, 0x54, 0x55, 0x56, 0x57, 0x58, 0x59,
    0x5a, 0x63, 0x64, 0x65, 0x66, 0x67, 0x68, 0x69, 0x6a, 0x73, 0x74, 0x75, 0x76, 0x77, 0x78, 0x79, 0x7a, 0x83,
    0x84, 0x85, 0x86, 0x87, 0x88, 0x89, 0x8a, 0x92, 0x93, 0x94, 0x95, 0x96, 0x97, 0x98, 0x99, 0x9a, 0xa2, 0xa3,
    0xa4, 0xa5, 0xa6, 0xa7, 0xa8, 0xa9, 0xaa, 0xb2, 0xb3, 0xb4, 0xb5, 0xb6, 0xb7, 0xb8, 0xb9, 0xba, 0xc2, 0xc3,
    0xc4, 0xc5, 0xc6, 0xc7, 0xc8, 0xc9, 0xca, 0xd2, 0xd3, 0xd4, 0xd5, 0xd6, 0xd7, 0xd8, 0xd9, 0xda, 0xe1, 0xe2,
    0xe3, 0xe4, 0xe5, 0xe6, 0xe7, 0xe8, 0xe9, 0xea, 0xf1, 0xf2, 0xf3, 0xf4, 0xf5, 0xf6, 0xf7, 0xf8, 0xf9, 0xfa]

def stdDcChrominanceNrcodes : List Nat := [
    0, 0, 3, 1, 1, 1, 1, 1, 1, 1, 1, 1, 0, 0, 0, 0, 0]

def stdDcChrominanceValues : List Nat := [
    0, 1, 2, 3, 4, 5, 6, 7, 8, 9, 10, 11]

def stdAcChrominanceNrcodes : List Nat := [
    0, 0, 2, 1, 2, 4, 4, 3, 4, 7, 5, 4, 4, 0, 1, 2, 0x77]

def stdAcChrominanceValues : List Nat := [
    0x00, 0x01, 0x02, 0x03, 0x11, 0x04, 0x05, 0x21, 0x31, 0x06, 0x12, 0x41, 0x51, 0x07, 0x61, 0x71, 0x13, 0x22,
    0x32, 0x81, 0x08, 0x14, 0x42, 0x91, 0xa1, 0xb1, 0xc1, 0x09, 0x23, 0x33, 0x52, 0xf0, 0x15, 0x62, 0x72, 0xd1,
    0x0a, 0x16, 0x24, 0x34, 0xe1, 0x25, 0xf1, 0x17, 0x18, 0x19, 0x1a, 0x26, 0x27, 0x28, 0x29, 0x2a, 0x35, 0x36,
    0x37, 0x38, 0x39, 0x3a, 0x43, 0x44, 0x45, 0x46, 0x47, 0x48, 0x49, 0x4a, 0x53, 0x54, 0x55, 0x56, 0x57, 0x58,
    0x59, 0x5a, 0x63, 0x64, 0x65, 0x66, 0x67, 0x68, 0x69, 0x6a, 0x73, 0x74, 0x75, 0x76, 0x77, 0x78, 0x79, 0x7a,
    0x82, 0x83, 0x84, 0x85, 0x86, 0x87, 0x88, 0x89, 0x8a, 0x92, 0x93, 0x94, 0x95, 0x96, 0x97, 0x98, 0x99, 0x9a,
    0xa2, 0xa3, 0xa4, 0xa5, 0xa6, 0xa7, 0xa8, 0xa9, 0xaa, 0xb2, 0xb3, 0xb4, 0xb5, 0xb6, 0xb7, 0xb8, 0xb9, 0xba,
    0xc2, 0xc3, 0xc4, 0xc5, 0xc6, 0xc7, 0xc8, 0xc9, 0xca, 0xd2, 0xd3, 0xd4, 0xd5, 0xd6, 0xd7, 0xd8, 0xd9, 0xda,
    0xe2, 0xe3, 0xe4, 0xe5, 0xe6, 0xe7, 0xe8, 0xe9, 0xea, 0xf2, 0xf3, 0xf4, 0xf5, 0xf6, 0xf7, 0xf8, 0xf9, 0xfa]

def ydcHt : List BitString := [
    (0, 2), (2, 3), (3, 3), (4, 3), (5, 3), (6, 3),
    (14, 4), (30, 5), (62, 6), (126, 7), (254, 8), (510, 9)]

def uvdcHt : List BitString := [
    (0, 2), (1, 2), (2, 2), (6, 3), (14, 4), (30, 5),
    (62, 6), (126, 7), (254, 8), (510, 9), (1022, 10), (2046, 11)]

def yacHt : List BitString := [
    (0x000A, 4), (0x0000, 2), (0x0001, 2), (0x0004, 3), (0x000B, 4), (0x001A, 5), (0x0078, 7), (0x00F8, 8),
    (0x03F6, 10), (0xFF82, 16), (0xFF83, 16), (0x0000, 0), (0x0000, 0), (0x0000, 0), (0x0000, 0), (0x0000, 0),
    (0x0000, 0), (0x000C, 4), (0x001B, 5), (0x0079, 7), (0x01F6, 9), (0x07F6, 11), (0xFF84, 16), (0xFF85, 16),
    (0xFF86, 16), (0xFF87, 16), (0xFF88, 16), (0x0000, 0), (0x0000, 0), (0x0000, 0), (0x0000, 0), (0x0000, 0),
    (0x0000, 0), (0x001C, 5), (0x00F9, 8), (0x03F7, 10), (0x0FF4, 12), (0xFF89, 16), (0xFF8A, 16), (0xFF8B, 16),
    (0xFF8C, 16), (0xFF8D, 16), (0xFF8E, 16), (0x0000, 0), (0x0000, 0), (0x0000, 0), (0x0000, 0), (0x0000, 0),
    (0x0000, 0), (0x003A, 6), (0x01F7, 9), (0x0FF5, 12), (0xFF8F, 16), (0xFF90, 16), (0xFF91, 16), (0xFF92, 16),
    (0xFF93, 16), (0xFF94, 16), (0xFF95, 16), (0x0000, 0), (0x0000, 0), (0x0000, 0), (0x0000, 0), (0x0000, 0),
    (0x0000, 0), (0x003B, 6), (0x03F8, 10), (0xFF96, 16), (0xFF97, 16), (0xFF98, 16), (0xFF99, 16), (0xFF9A, 16),
    (0xFF9B, 16), (0xFF9C, 16), (0xFF9D, 16), (0x0000, 0), (0x0000, 0), (0x0000, 0), (0x0000, 0), (0x0000, 0),
    (0x0000, 0), (0x007A, 7), (0x07F7, 11), (0xFF9E, 16), (0xFF9F, 16), (0xFFA0, 16), (0xFFA1, 16), (0xFFA2, 16),
    (0xFFA3, 16), (0xFFA4, 16), (0xFFA5, 16), (0x0000, 0), (0x0000, 0), (0x0000, 0), (0x0000, 0), (0x0000, 0),
    (0x0000, 0), (0x007B, 7), (0x0FF6, 12), (0xFFA6, 16), (0xFFA7, 16), (0xFFA8, 16), (0xFFA9, 16), (0xFFAA, 16),
    (0xFFAB, 16), (0xFFAC, 16), (0xFFAD, 16), (0x0000, 0), (0x0000, 0), (0x0000, 0), (0x0000, 0), (0x0000, 0),
    (0x0000, 0), (0x00FA, 8), (0x0FF7, 12), (0xFFAE, 16), (0xFFAF, 16), (0xFFB0, 16), (0xFFB1, 16), (0xFFB2, 16),
    (0xFFB3, 16), (0xFFB4, 16), (0xFFB5, 16), (0x0000, 0), (0x0000, 0), (0x0000, 0), (0x0000, 0), (0x0000, 0),
    (0x0000, 0), (0x01F8, 9), (0x7FC0, 15), (0xFFB6, 16), (0xFFB7, 16), (0xFFB8, 16), (0xFFB9, 16), (0xFFBA, 16),
    (0xFFBB, 16), (0xFFBC, 16), (0xFFBD, 16), (0x0000, 0), (0x0000, 0), (0x0000, 0), (0x0000, 0), (0x0000, 0),
    (0x0000, 0), (0x01F9, 9), (0xFFBE, 16), (0xFFBF, 16), (0xFFC0, 16), (0xFFC1, 16), (0xFFC2, 16), (0xFFC3, 16),
    (0xFFC4, 16), (0xFFC5, 16), (0xFFC6, 16), (0x0000, 0), (0x0000, 0), (0x0000, 0), (0x0000, 0), (0x0000, 0),
    (0x0000, 0), (0x01FA, 9), (0xFFC7, 16), (0xFFC8, 16), (0xFFC9, 16), (0xFFCA, 16), (0xFFCB, 16), (0xFFCC, 16),
    (0xFFCD, 16), (0xFFCE, 16), (0xFFCF, 16), (0x0000, 0), (0x0000, 0), (0x0000, 0), (0x0000, 0), (0x0000, 0),
    (0x0000, 0), (0x03F9, 10), (0xFFD0, 16), (0xFFD1, 16), (0xFFD2, 16), (0xFFD3, 16), (0xFFD4, 16), (0xFFD5, 16),
    (0xFFD6, 16), (0xFFD7, 16), (0xFFD8, 16), (0x0000, 0), (0x0000, 0), (0x0000, 0), (0x0000, 0), (0x0000, 0),
    (0x0000, 0), (0x03FA, 10), (0xFFD9, 16), (0xFFDA, 16), (0xFFDB, 16), (0xFFDC, 16), (0xFFDD, 16), (0xFFDE, 16),
    (0xFFDF, 16), (0xFFE0, 16), (0xFFE1, 16), (0x0000, 0), (0x0000, 0), (0x0000, 0), (0x0000, 0), (0x0000, 0),
    (0x0000, 0), (0x07F8, 11), (0xFFE2, 16), (0xFFE3, 16), (0xFFE4, 16), (0xFFE5, 16), (0xFFE6, 16), (0xFFE7, 16),
    (0xFFE8, 16), (0xFFE9, 16), (0xFFEA, 16), (0x0000, 0), (0x0000, 0), (0x0000, 0), (0x0000, 0), (0x0000, 0),
    (0x0000, 0), (0xFFEB, 16), (0xFFEC, 16), (0xFFED, 16), (0xFFEE, 16), (0xFFEF, 16), (0xFFF0, 16), (0xFFF1, 16),
    (0xFFF2, 16), (0xFFF3, 16), (0xFFF4, 16), (0x0000, 0), (0x0000, 0), (0x0000, 0), (0x0000, 0), (0x0000, 0),
    (0x07F9, 11), (0xFFF5, 16), (0xFFF6, 16), (0xFFF7, 16), (0xFFF8, 16), (0xFFF9, 16), (0xFFFA, 16), (0xFFFB, 16),
    (0xFFFC, 16), (0xFFFD, 16), (0xFFFE, 16), (0x0000, 0), (0x0000, 0), (0x0000, 0), (0x0000, 0), (0x0000, 0)]

def uvacHt : List BitString := [
    (0x0000, 2), (0x0001, 2), (0x0004, 3), (0x000A, 4), (0x0018, 5), (0x0019, 5), (0x0038, 6), (0x0078, 7),
    (0x01F4, 9), (0x03F6, 10), (0x0FF4, 12), (0x0000, 0), (0x0000, 0), (0x0000, 0), (0x0000, 0), (0x0000, 0),
    (0x0000, 0), (0x000B, 4), (0x0039, 6), (0x00F6, 8), (0x01F5, 9), (0x07F6, 11), (0x0FF5, 12), (0xFF88, 16),
    (0xFF89, 16), (0xFF8A, 16), (0xFF8B, 16), (0x0000, 0), (0x0000, 0), (0x0000, 0), (0x0000, 0), (0x0000, 0),
    (0x0000, 0), (0x001A, 5), (0x00F7, 8), (0x03F7, 10), (0x0FF6, 12), (0x7FC2, 15), (0xFF8C, 16), (0xFF8D, 16),
    (0xFF8E, 16), (0xFF8F, 16), (0xFF90, 16), (0x0000, 0), (0x0000, 0), (0x0000, 0), (0x0000, 0), (0x0000, 0),
    (0x0000, 0), (0x001B, 5), (0x00F8, 8), (0x03F8, 10), (0x0FF7, 12), (0xFF91, 16), (0xFF92, 16), (0xFF93, 16),
    (0xFF94, 16), (0xFF95, 16), (0xFF96, 16), (0x0000, 0), (0x0000, 0), (0x0000, 0), (0x0000, 0), (0x0000, 0),
    (0x0000, 0), (0x003A, 6), (0x01F6, 9), (0xFF97, 16), (0xFF98, 16), (0xFF99, 16), (0xFF9A, 16), (0xFF9B, 16),
    (0xFF9C, 16), (0xFF9D, 16), (0xFF9E, 16), (0x0000, 0), (0x0000, 0), (0x0000, 0), (0x0000, 0), (0x0000, 0),
    (0x0000, 0), (0x003B, 6), (0x03F9, 10), (0xFF9F, 16), (0xFFA0, 16), (0xFFA1, 16), (0xFFA2, 16), (0xFFA3, 16),
    (0xFFA4, 16), (0xFFA5, 16), (0xFFA6, 16), (0x0000, 0), (0x0000, 0), (0x0000, 0), (0x0000, 0), (0x0000, 0),
    (0x0000, 0), (0x0079, 7), (0x07F7, 11), (0xFFA7, 16), (0xFFA8, 16), (0xFFA9, 16), (0xFFAA, 16), (0xFFAB, 16),
    (0xFFAC, 16), (0xFFAD, 16), (0xFFAE, 16), (0x0000, 0), (0x0000, 0), (0x0000, 0), (0x0000, 0), (0x0000, 0),
    (0x0000, 0), (0x007A, 7), (0x07F8, 11), (0xFFAF, 16), (0xFFB0, 16), (0xFFB1, 16), (0xFFB2, 16), (0xFFB3, 16),
    (0xFFB4, 16), (0xFFB5, 16), (0xFFB6, 16), (0x0000, 0), (0x0000, 0), (0x0000, 0), (0x0000, 0), (0x0000, 0),
    (0x0000, 0), (0x00F9, 8), (0xFFB7, 16), (0xFFB8, 16), (0xFFB9, 16), (0xFFBA, 16), (0xFFBB, 16), (0xFFBC, 16),
    (0xFFBD, 16), (0xFFBE, 16), (0xFFBF, 16), (0x0000, 0), (0x0000, 0), (0x0000, 0), (0x0000, 0), (0x0000, 0),
    (0x0000, 0), (0x01F7, 9), (0xFFC0, 16), (0xFFC1, 16), (0xFFC2, 16), (0xFFC3, 16), (0xFFC4, 16), (0xFFC5, 16),
    (0xFFC6, 16), (0xFFC7, 16), (0xFFC8, 16), (0x0000, 0), (0x0000, 0), (0x0000, 0), (0x0000, 0), (0x0000, 0),
    (0x0000, 0), (0x01F8, 9), (0xFFC9, 16), (0xFFCA, 16), (0xFFCB, 16), (0xFFCC, 16), (0xFFCD, 16), (0xFFCE, 16),
    (0xFFCF, 16), (0xFFD0, 16), (0xFFD1, 16), (0x0000, 0), (0x0000, 0), (0x0000, 0), (0x0000, 0), (0x0000, 0),
    (0x0000, 0), (0x01F9, 9), (0xFFD2, 16), (0xFFD3, 16), (0xFFD4, 16), (0xFFD5, 16), (0xFFD6, 16), (0xFFD7, 16),
    (0xFFD8, 16), (0xFFD9, 16), (0xFFDA, 16), (0x0000, 0), (0x0000, 0), (0x0000, 0), (0x0000, 0), (0x0000, 0),
    (0x0000, 0), (0x01FA, 9), (0xFFDB, 16), (0xFFDC, 16), (0xFFDD, 16), (0xFFDE, 16), (0xFFDF, 16), (0xFFE0, 16),
    (0xFFE1, 16), (0xFFE2, 16), (0xFFE3, 16), (0x0000, 0), (0x0000, 0), (0x0000, 0), (0x0000, 0), (0x0000, 0),
    (0x0000, 0), (0x07F9, 11), (0xFFE4, 16), (0xFFE5, 16), (0xFFE6, 16), (0xFFE7, 16), (0xFFE8, 16), (0xFFE9, 16),
    (0xFFEA, 16), (0xFFEB, 16), (0xFFEC, 16), (0x0000, 0), (0x0000, 0), (0x0000, 0), (0x0000, 0), (0x0000, 0),
    (0x0000, 0), (0x3FE0, 14), (0xFFED, 16), (0xFFEE, 16), (0xFFEF, 16), (0xFFF0, 16), (0xFFF1, 16), (0xFFF2, 16),
    (0xFFF3, 16), (0xFFF4, 16), (0xFFF5, 16), (0x0000, 0), (0x0000, 0), (0x0000, 0), (0x0000, 0), (0x0000, 0),
    (0x03FA, 10), (0x7FC3, 15), (0xFFF6, 16), (0xFFF7, 16), (0xFFF8, 16), (0xFFF9, 16), (0xFFFA, 16), (0xFFFB, 16),
    (0xFFFC, 16), (0xFFFD, 16), (0xFFFE, 16), (0x0000, 0), (0x0000, 0), (0x0000, 0), (0x0000, 0), (0x0000, 0)]

def row (table : List BitString) (symbol : Nat) : BitString := table.getD symbol (0, 0)

def BitString.word (bits : BitString) : List Bool := PrefixCode.bits bits.2 bits.1

def declared (nrcodes values : List Nat) : List (PrefixCode.Entry Nat) := PrefixCode.canonical 1 0 (nrcodes.drop 1) values

/-- The table has the words of the code, and they are words. -/
def Agrees (table : List BitString) (nrcodes values : List Nat) : Prop :=
  ∀ entry ∈ declared nrcodes values, row table entry.symbol = (entry.value, entry.width) ∧ entry.value < 2 ^ entry.width ∧ entry.width ≤ 16

instance (table : List BitString) (nrcodes values : List Nat) : Decidable (Agrees table nrcodes values) :=
  inferInstanceAs (Decidable (∀ _ ∈ _, _))

theorem ydcHt_agrees : Agrees ydcHt stdDcLuminanceNrcodes stdDcLuminanceValues := by decide +kernel

theorem yacHt_agrees : Agrees yacHt stdAcLuminanceNrcodes stdAcLuminanceValues := by decide +kernel

theorem uvdcHt_agrees : Agrees uvdcHt stdDcChrominanceNrcodes stdDcChrominanceValues := by decide +kernel

theorem uvacHt_agrees : Agrees uvacHt stdAcChrominanceNrcodes stdAcChrominanceValues := by decide +kernel

open PrefixCode (bits number)

/-- `jpeg_buf_t`. `idx` is the length of what has been written to `buf`. -/
structure JpegBuf where
  buf : List UInt8
  length : Int
  bitb : Nat
  bitc : Nat
  realloc : Bool
  overflow : Bool
  deriving DecidableEq

namespace JpegBuf

def put (data : List UInt8) (jpegBuf : JpegBuf) : JpegBuf :=
  if (jpegBuf.buf.length + data.length : Int) ≥ jpegBuf.length then
    if jpegBuf.realloc = false then { jpegBuf with overflow := true }
    else { jpegBuf with length := jpegBuf.length + 1024, buf := jpegBuf.buf ++ data }
  else { jpegBuf with buf := jpegBuf.buf ++ data }

/-- The result and what is left of the buffer. -/
def jpegCheckHighwater (jpegBuf : JpegBuf) : Bool × JpegBuf :=
  if (jpegBuf.buf.length + 1 : Int) ≥ jpegBuf.length - 256 then
    if jpegBuf.realloc = false then (true, { jpegBuf with overflow := true })
    else (false, { jpegBuf with length := jpegBuf.length + 1024 })
  else (false, jpegBuf)

def jpegPutChar (jpegBuf : JpegBuf) (c : UInt8) : JpegBuf := jpegBuf.put [c]

def jpegPutBytes (jpegBuf : JpegBuf) (data : List UInt8) : JpegBuf := jpegBuf.put data

/-- A byte of the scan; a zero after 0xFF keeps it from being a marker. -/
def emit (jpegBuf : JpegBuf) (c : UInt8) : JpegBuf :=
  if c = 255 then (jpegBuf.jpegPutChar c).jpegPutChar 0 else jpegBuf.jpegPutChar c

/-- One round of the loop of `jpeg_write_bits`: the byte at the top of the window leaves it. -/
def sendByte (jpegBuf : JpegBuf) : JpegBuf :=
  let sent := jpegBuf.emit (UInt8.ofNat ((jpegBuf.bitb >>> 16) &&& 255))
  { sent with bitb := (sent.bitb <<< 8) % 2 ^ 32, bitc := sent.bitc - 8 }

/-- The loop, of at most so many rounds. -/
def drain : (rounds : Nat) → JpegBuf → JpegBuf
  | 0, jpegBuf => jpegBuf
  | rounds + 1, jpegBuf => if 7 < jpegBuf.bitc then drain rounds jpegBuf.sendByte else jpegBuf

/-- The first two lines of `jpeg_write_bits`. -/
def collect (jpegBuf : JpegBuf) (bs : BitString) : JpegBuf :=
  { jpegBuf with bitc := jpegBuf.bitc + bs.2, bitb := (jpegBuf.bitb ||| (bs.1 <<< (24 - (jpegBuf.bitc + bs.2)))) % 2 ^ 32 }

def jpegWriteBits (jpegBuf : JpegBuf) (bs : BitString) : JpegBuf := drain (jpegBuf.collect bs).bitc (jpegBuf.collect bs)

def writeAll (jpegBuf : JpegBuf) (written : List BitString) : JpegBuf := written.foldl jpegWriteBits jpegBuf

end JpegBuf

/-- What stands for some bytes between two markers. -/
def stuffed (bytes : List UInt8) : List UInt8 := bytes.flatMap fun c => if c = 255 then [255, 0] else [c]

def byteBits (bytes : List UInt8) : List Bool := bytes.flatMap fun c => bits 8 c.toNat

@[simp] theorem stuffed_append (first second : List UInt8) : stuffed (first ++ second) = stuffed first ++ stuffed second :=
  List.flatMap_append

@[simp] theorem byteBits_append (first second : List UInt8) : byteBits (first ++ second) = byteBits first ++ byteBits second :=
  List.flatMap_append

private theorem byteBits_singleton (c : UInt8) : byteBits [c] = bits 8 c.toNat := List.append_nil _

theorem stuffed_singleton (c : UInt8) : stuffed [c] = if c = 255 then [255, 0] else [c] := List.append_nil _

/-- The pair is some bits and no more, and there is room for them in the window. -/
def BitString.Fits (bs : BitString) : Prop := bs.1 < 2 ^ bs.2 ∧ bs.2 ≤ 16

namespace JpegBuf

/-- Whole bytes have gone out behind `front`, and the other bits wait at the top of the window. -/
structure Held (jpegBuf : JpegBuf) (front bytes : List UInt8) (pending : List Bool) : Prop where
  stored : jpegBuf.buf = front ++ stuffed bytes
  count : jpegBuf.bitc = pending.length
  window : jpegBuf.bitb % 2 ^ 24 = number pending * 2 ^ (24 - pending.length)

/-- The bits have been written behind `front`. -/
def Holds (jpegBuf : JpegBuf) (front : List UInt8) (sent : List Bool) : Prop :=
  ∃ bytes pending, sent = byteBits bytes ++ pending ∧ pending.length ≤ 7 ∧ jpegBuf.Held front bytes pending

theorem put_frame (data : List UInt8) (jpegBuf : JpegBuf) :
    (jpegBuf.put data).bitb = jpegBuf.bitb ∧ (jpegBuf.put data).bitc = jpegBuf.bitc ∧ (jpegBuf.put data).realloc = jpegBuf.realloc := by
  unfold put
  split
  · split <;> exact ⟨rfl, rfl, rfl⟩
  · exact ⟨rfl, rfl, rfl⟩

/-- Without the mark, the bytes are there. -/
theorem put_stored {data : List UInt8} {jpegBuf : JpegBuf} (clear : (jpegBuf.put data).overflow = false) :
    jpegBuf.overflow = false ∧ (jpegBuf.put data).buf = jpegBuf.buf ++ data := by
  unfold put at clear ⊢
  split at clear
  · split at clear
    · cases clear
    · next full realloc => rw [if_pos full, if_neg realloc]; exact ⟨clear, rfl⟩
  · next free => rw [if_neg free]; exact ⟨clear, rfl⟩

private theorem emit_frame (jpegBuf : JpegBuf) (c : UInt8) :
    (jpegBuf.emit c).bitb = jpegBuf.bitb ∧ (jpegBuf.emit c).bitc = jpegBuf.bitc ∧ (jpegBuf.emit c).realloc = jpegBuf.realloc := by
  obtain ⟨window, count, realloc⟩ := put_frame [c] jpegBuf
  unfold emit
  split
  · obtain ⟨window', count', realloc'⟩ := put_frame [0] (jpegBuf.put [c])
    exact ⟨window'.trans window, count'.trans count, realloc'.trans realloc⟩
  · exact ⟨window, count, realloc⟩

private theorem emit_stored {jpegBuf : JpegBuf} {c : UInt8} (clear : (jpegBuf.emit c).overflow = false) :
    jpegBuf.overflow = false ∧ (jpegBuf.emit c).buf = jpegBuf.buf ++ stuffed [c] := by
  rw [stuffed_singleton]
  unfold emit at clear ⊢
  split at clear
  · next marker =>
    subst marker
    obtain ⟨first, zero⟩ := put_stored clear
    obtain ⟨before, byte⟩ := put_stored first
    rw [if_pos rfl, if_pos rfl]
    exact ⟨before, zero.trans (by rw [jpegPutChar, byte, List.append_assoc]; rfl)⟩
  · next plain =>
    rw [if_neg plain, if_neg plain]
    exact put_stored clear

theorem Held.shift {jpegBuf : JpegBuf} {front bytes : List UInt8} {pending : List Bool} (held : jpegBuf.Held front bytes pending)
    (full : 7 < jpegBuf.bitc) (room : jpegBuf.bitc ≤ 24) (clear : jpegBuf.sendByte.overflow = false) :
    ∃ c later, byteBits bytes ++ pending = byteBits (bytes ++ [c]) ++ later ∧ jpegBuf.sendByte.Held front (bytes ++ [c]) later := by
  obtain ⟨c, top⟩ : ∃ c, c = UInt8.ofNat ((jpegBuf.bitb >>> 16) &&& 255) := ⟨_, rfl⟩
  have sends : jpegBuf.sendByte = { jpegBuf.emit c with bitb := ((jpegBuf.emit c).bitb <<< 8) % 2 ^ 32, bitc := (jpegBuf.emit c).bitc - 8 } := by
    rw [top]
    rfl
  rw [sends] at clear ⊢
  obtain ⟨window, count, -⟩ := emit_frame jpegBuf c
  have many : 7 < pending.length := held.count ▸ full
  have few : pending.length ≤ 24 := held.count ▸ room
  obtain ⟨eight, later, split, lengths⟩ : ∃ eight later, pending = eight ++ later ∧ eight.length = 8 :=
    ⟨pending.take 8, pending.drop 8, (List.take_append_drop 8 pending).symm, by rw [List.length_take]; omega⟩
  have size : pending.length = 8 + later.length := by rw [split, List.length_append, lengths]
  have below := PrefixCode.number_lt eight
  have below' := PrefixCode.number_lt later
  rw [lengths] at below
  -- the window is the byte, the later bits and zeros
  have parts : jpegBuf.bitb % 2 ^ 24 = number eight * 2 ^ 16 + number later * 2 ^ (16 - later.length) := by
    have shift : 24 - pending.length = 16 - later.length := by omega
    have whole : 2 ^ later.length * 2 ^ (16 - later.length) = 2 ^ 16 := by rw [← Nat.pow_add]; congr 1; omega
    rw [held.window, shift, split, PrefixCode.number_append, Nat.add_mul, Nat.mul_assoc, whole]
  have low : number later * 2 ^ (16 - later.length) < 2 ^ 16 := by
    calc number later * 2 ^ (16 - later.length) < 2 ^ later.length * 2 ^ (16 - later.length) :=
          Nat.mul_lt_mul_of_pos_right below' (Nat.two_pow_pos _)
      _ = 2 ^ 16 := by rw [← Nat.pow_add]; congr 1; omega
  have byte : c.toNat = number eight := by
    have high : (jpegBuf.bitb >>> 16) &&& 255 = number eight := by
      have mask := Nat.and_two_pow_sub_one_eq_mod (jpegBuf.bitb >>> 16) 8
      rw [Nat.shiftRight_eq_div_pow] at mask ⊢
      refine mask.trans ?_
      omega
    rw [top, high, UInt8.toNat_ofNat']
    exact Nat.mod_eq_of_lt below
  refine ⟨c, later, ?_, ?_, ?_, ?_⟩
  · have same := PrefixCode.bits_number eight
    rw [lengths] at same
    rw [byteBits_append, byteBits_singleton, byte, same, split, List.append_assoc]
  · change (jpegBuf.emit c).buf = _
    rw [(emit_stored clear).2, held.stored, stuffed_append, List.append_assoc]
  · change (jpegBuf.emit c).bitc - 8 = _
    rw [count, held.count]
    omega
  · change ((jpegBuf.emit c).bitb <<< 8) % 2 ^ 32 % 2 ^ 24 = _
    have scale : 2 ^ (24 - later.length) = 2 ^ (16 - later.length) * 2 ^ 8 := by rw [← Nat.pow_add]; congr 1; omega
    rw [window, Nat.shiftLeft_eq, scale, ← Nat.mul_assoc]
    omega

private theorem sendByte_count (jpegBuf : JpegBuf) : jpegBuf.sendByte.bitc = jpegBuf.bitc - 8 :=
  congrArg (· - 8) (emit_frame jpegBuf _).2.1

private theorem sendByte_clear {jpegBuf : JpegBuf} (clear : jpegBuf.sendByte.overflow = false) : jpegBuf.overflow = false :=
  (@emit_stored jpegBuf (UInt8.ofNat ((jpegBuf.bitb >>> 16) &&& 255)) clear).1

theorem drain_clear {rounds : Nat} {jpegBuf : JpegBuf} (clear : (drain rounds jpegBuf).overflow = false) : jpegBuf.overflow = false := by
  induction rounds generalizing jpegBuf with
  | zero => exact clear
  | succ rounds ih =>
    unfold drain at clear
    split at clear
    · exact sendByte_clear (ih clear)
    · exact clear

private theorem drain_holds {jpegBuf : JpegBuf} {front bytes : List UInt8} {pending : List Bool} {rounds : Nat}
    (held : jpegBuf.Held front bytes pending) (room : jpegBuf.bitc ≤ 24) (enough : jpegBuf.bitc ≤ rounds + 7)
    (clear : (drain rounds jpegBuf).overflow = false) : (drain rounds jpegBuf).Holds front (byteBits bytes ++ pending) := by
  induction rounds generalizing jpegBuf bytes pending with
  | zero => exact ⟨bytes, pending, rfl, held.count ▸ enough, held⟩
  | succ rounds ih =>
    unfold drain at clear ⊢
    by_cases full : 7 < jpegBuf.bitc
    · rw [if_pos full] at clear ⊢
      obtain ⟨c, later, same, shifted⟩ := held.shift full room (drain_clear clear)
      rw [same]
      exact ih shifted (by rw [sendByte_count]; omega) (by rw [sendByte_count]; omega) clear
    · rw [if_neg full] at clear ⊢
      exact ⟨bytes, pending, rfl, by rw [← held.count]; omega, held⟩

theorem Held.collect {jpegBuf : JpegBuf} {front bytes : List UInt8} {pending : List Bool} (held : jpegBuf.Held front bytes pending)
    (few : pending.length ≤ 7) {bs : BitString} (fits : bs.Fits) :
    (jpegBuf.collect bs).Held front bytes (pending ++ bs.word) := by
  obtain ⟨below, narrow⟩ := fits
  have lengths : bs.word.length = bs.2 := PrefixCode.bits_length _ _
  refine ⟨held.stored, ?_, ?_⟩
  · change jpegBuf.bitc + bs.2 = _
    rw [List.length_append, lengths, held.count]
  · change (jpegBuf.bitb ||| (bs.1 <<< (24 - (jpegBuf.bitc + bs.2)))) % 2 ^ 32 % 2 ^ 24 = _
    have word : number bs.word = bs.1 := PrefixCode.bits_number_of_lt below
    have split : 2 ^ (24 - pending.length) = 2 ^ bs.2 * 2 ^ (24 - (pending.length + bs.2)) := by
      rw [← Nat.pow_add]
      congr 1
      omega
    have inside : bs.1 * 2 ^ (24 - (pending.length + bs.2)) < 2 ^ (24 - pending.length) := by
      rw [split]
      exact Nat.mul_lt_mul_of_pos_right below (Nat.two_pow_pos _)
    have small : bs.1 * 2 ^ (24 - (pending.length + bs.2)) < 2 ^ 24 :=
      Nat.lt_of_lt_of_le inside (Nat.pow_le_pow_right (by decide) (Nat.sub_le _ _))
    rw [Nat.mod_mod_of_dvd _ (by decide), Nat.or_mod_two_pow, held.window, held.count, Nat.shiftLeft_eq, Nat.mod_eq_of_lt small,
      Nat.mul_comm (number pending), ← Nat.two_pow_add_eq_or_of_lt inside, PrefixCode.number_append, word, lengths, List.length_append,
      lengths, split]
    ring

private theorem jpegWriteBits_clear {jpegBuf : JpegBuf} {bs : BitString} (clear : (jpegBuf.jpegWriteBits bs).overflow = false) :
    jpegBuf.overflow = false :=
  @drain_clear _ (jpegBuf.collect bs) clear

theorem jpegWriteBits_holds {jpegBuf : JpegBuf} {front : List UInt8} {sent : List Bool} (holds : jpegBuf.Holds front sent) {bs : BitString}
    (fits : bs.Fits) (clear : (jpegBuf.jpegWriteBits bs).overflow = false) :
    (jpegBuf.jpegWriteBits bs).Holds front (sent ++ bs.word) := by
  obtain ⟨bytes, pending, rfl, few, held⟩ := holds
  have count : jpegBuf.bitc + bs.2 ≤ 24 := by
    have narrow := fits.2
    have := held.count
    omega
  rw [List.append_assoc]
  exact drain_holds (held.collect few fits) count (Nat.le_add_right _ _) clear

theorem writeAll_clear {jpegBuf : JpegBuf} {written : List BitString} (clear : (jpegBuf.writeAll written).overflow = false) :
    jpegBuf.overflow = false := by
  induction written generalizing jpegBuf with
  | nil => exact clear
  | cons bs written ih => exact jpegWriteBits_clear (ih clear)

end JpegBuf

def words (written : List BitString) : List Bool := written.flatMap BitString.word

@[simp] theorem words_append (first second : List BitString) : words (first ++ second) = words first ++ words second :=
  List.flatMap_append

@[simp] theorem words_cons (bs : BitString) (written : List BitString) : words (bs :: written) = bs.word ++ words written := rfl

namespace JpegBuf

theorem writeAll_holds {jpegBuf : JpegBuf} {front : List UInt8} {sent : List Bool} (holds : jpegBuf.Holds front sent)
    {written : List BitString} (fits : ∀ bs ∈ written, bs.Fits) (clear : (jpegBuf.writeAll written).overflow = false) :
    (jpegBuf.writeAll written).Holds front (sent ++ words written) := by
  induction written generalizing jpegBuf sent with
  | nil =>
    rw [words, List.flatMap_nil, List.append_nil]
    exact holds
  | cons bs written ih =>
    have first : (jpegBuf.jpegWriteBits bs).overflow = false := @writeAll_clear _ written clear
    rw [words_cons, ← List.append_assoc]
    exact ih (jpegWriteBits_holds holds (fits bs List.mem_cons_self) first) (fun other member => fits other (List.mem_cons_of_mem _ member))
      clear

end JpegBuf

end ArduinoK210.Jpeg
