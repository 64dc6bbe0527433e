import Keyring.Bytes

/-!
# Compatibility decomposition onto ASCII

Fullwidth and mathematical letters, ligatures, circled numbers and the many blanks decompose into
plain ASCII characters. `decompose` does this for every character whose full compatibility
decomposition is plain ASCII and leaves every other character alone. That suffices to recognise
words over ASCII letters: a text holds such a word exactly if its full decomposition does.
-/

namespace Keyring.Text.Compatibility

/-- The blanks that decompose into U+0020. -/
def blanks : List Nat :=
  [0xa0, 0x2000, 0x2001, 0x2002, 0x2003, 0x2004, 0x2005, 0x2006, 0x2007, 0x2008, 0x2009, 0x200a,
   0x202f, 0x205f, 0x3000]

/-- Runs `(first, last, ascii)` of characters that decompose into consecutive ASCII characters from
`ascii` on. -/
def runs : List (Nat × Nat × Nat) :=
  [(0xaa, 0xaa, 0x61), (0xb2, 0xb3, 0x32), (0xb9, 0xb9, 0x31), (0xba, 0xba, 0x6f),
   (0x17f, 0x17f, 0x73), (0x2b0, 0x2b0, 0x68), (0x2b2, 0x2b2, 0x6a), (0x2b3, 0x2b3, 0x72),
   (0x2b7, 0x2b7, 0x77), (0x2b8, 0x2b8, 0x79), (0x2e1, 0x2e1, 0x6c), (0x2e2, 0x2e2, 0x73),
   (0x2e3, 0x2e3, 0x78), (0x37e, 0x37e, 0x3b), (0x1d2c, 0x1d2c, 0x41), (0x1d2e, 0x1d2e, 0x42),
   (0x1d30, 0x1d31, 0x44), (0x1d33, 0x1d3a, 0x47), (0x1d3c, 0x1d3c, 0x4f), (0x1d3e, 0x1d3e, 0x50),
   (0x1d3f, 0x1d3f, 0x52), (0x1d40, 0x1d41, 0x54), (0x1d42, 0x1d42, 0x57), (0x1d43, 0x1d43, 0x61),
   (0x1d47, 0x1d47, 0x62), (0x1d48, 0x1d49, 0x64), (0x1d4d, 0x1d4d, 0x67), (0x1d4f, 0x1d4f, 0x6b),
   (0x1d50, 0x1d50, 0x6d), (0x1d52, 0x1d52, 0x6f), (0x1d56, 0x1d56, 0x70), (0x1d57, 0x1d58, 0x74),
   (0x1d5b, 0x1d5b, 0x76), (0x1d62, 0x1d62, 0x69), (0x1d63, 0x1d63, 0x72), (0x1d64, 0x1d65, 0x75),
   (0x1d9c, 0x1d9c, 0x63), (0x1da0, 0x1da0, 0x66), (0x1dbb, 0x1dbb, 0x7a), (0x1fef, 0x1fef, 0x60),
   (0x2024, 0x2024, 0x2e), (0x2070, 0x2070, 0x30), (0x2071, 0x2071, 0x69), (0x2074, 0x2079, 0x34),
   (0x207a, 0x207a, 0x2b), (0x207c, 0x207c, 0x3d), (0x207d, 0x207e, 0x28), (0x207f, 0x207f, 0x6e),
   (0x2080, 0x2089, 0x30), (0x208a, 0x208a, 0x2b), (0x208c, 0x208c, 0x3d), (0x208d, 0x208e, 0x28),
   (0x2090, 0x2090, 0x61), (0x2091, 0x2091, 0x65), (0x2092, 0x2092, 0x6f), (0x2093, 0x2093, 0x78),
   (0x2095, 0x2095, 0x68), (0x2096, 0x2099, 0x6b), (0x209a, 0x209a, 0x70), (0x209b, 0x209c, 0x73),
   (0x2102, 0x2102, 0x43), (0x210a, 0x210a, 0x67), (0x210b, 0x210b, 0x48), (0x210c, 0x210c, 0x48),
   (0x210d, 0x210d, 0x48), (0x210e, 0x210e, 0x68), (0x2110, 0x2110, 0x49), (0x2111, 0x2111, 0x49),
   (0x2112, 0x2112, 0x4c), (0x2113, 0x2113, 0x6c), (0x2115, 0x2115, 0x4e), (0x2119, 0x211b, 0x50),
   (0x211c, 0x211c, 0x52), (0x211d, 0x211d, 0x52), (0x2124, 0x2124, 0x5a), (0x2128, 0x2128, 0x5a),
   (0x212a, 0x212a, 0x4b), (0x212c, 0x212d, 0x42), (0x212f, 0x212f, 0x65), (0x2130, 0x2131, 0x45),
   (0x2133, 0x2133, 0x4d), (0x2134, 0x2134, 0x6f), (0x2139, 0x2139, 0x69), (0x2145, 0x2145, 0x44),
   (0x2146, 0x2147, 0x64), (0x2148, 0x2149, 0x69), (0x2160, 0x2160, 0x49), (0x2164, 0x2164, 0x56),
   (0x2169, 0x2169, 0x58), (0x216c, 0x216c, 0x4c), (0x216d, 0x216e, 0x43), (0x216f, 0x216f, 0x4d),
   (0x2170, 0x2170, 0x69), (0x2174, 0x2174, 0x76), (0x2179, 0x2179, 0x78), (0x217c, 0x217c, 0x6c),
   (0x217d, 0x217e, 0x63), (0x217f, 0x217f, 0x6d), (0x2460, 0x2468, 0x31), (0x24b6, 0x24cf, 0x41),
   (0x24d0, 0x24e9, 0x61), (0x24ea, 0x24ea, 0x30), (0x2c7c, 0x2c7c, 0x6a), (0x2c7d, 0x2c7d, 0x56),
   (0xa7f2, 0xa7f2, 0x43), (0xa7f3, 0xa7f3, 0x46), (0xa7f4, 0xa7f4, 0x51), (0xfb29, 0xfb29, 0x2b),
   (0xfe10, 0xfe10, 0x2c), (0xfe13, 0xfe14, 0x3a), (0xfe15, 0xfe15, 0x21), (0xfe16, 0xfe16, 0x3f),
   (0xfe33, 0xfe33, 0x5f), (0xfe34, 0xfe34, 0x5f), (0xfe35, 0xfe36, 0x28), (0xfe37, 0xfe37, 0x7b),
   (0xfe38, 0xfe38, 0x7d), (0xfe47, 0xfe47, 0x5b), (0xfe48, 0xfe48, 0x5d), (0xfe4d, 0xfe4d, 0x5f),
   (0xfe4e, 0xfe4e, 0x5f), (0xfe4f, 0xfe4f, 0x5f), (0xfe50, 0xfe50, 0x2c), (0xfe52, 0xfe52, 0x2e),
   (0xfe54, 0xfe54, 0x3b), (0xfe55, 0xfe55, 0x3a), (0xfe56, 0xfe56, 0x3f), (0xfe57, 0xfe57, 0x21),
   (0xfe59, 0xfe5a, 0x28), (0xfe5b, 0xfe5b, 0x7b), (0xfe5c, 0xfe5c, 0x7d), (0xfe5f, 0xfe5f, 0x23),
   (0xfe60, 0xfe60, 0x26), (0xfe61, 0xfe62, 0x2a), (0xfe63, 0xfe63, 0x2d), (0xfe64, 0xfe64, 0x3c),
   (0xfe65, 0xfe65, 0x3e), (0xfe66, 0xfe66, 0x3d), (0xfe68, 0xfe68, 0x5c), (0xfe69, 0xfe6a, 0x24),
   (0xfe6b, 0xfe6b, 0x40), (0xff01, 0xff5e, 0x21), (0x107a5, 0x107a5, 0x71),
   (0x1d400, 0x1d419, 0x41), (0x1d41a, 0x1d433, 0x61), (0x1d434, 0x1d44d, 0x41),
   (0x1d44e, 0x1d454, 0x61), (0x1d456, 0x1d467, 0x69), (0x1d468, 0x1d481, 0x41),
   (0x1d482, 0x1d49b, 0x61), (0x1d49c, 0x1d49c, 0x41), (0x1d49e, 0x1d49f, 0x43),
   (0x1d4a2, 0x1d4a2, 0x47), (0x1d4a5, 0x1d4a6, 0x4a), (0x1d4a9, 0x1d4ac, 0x4e),
   (0x1d4ae, 0x1d4b5, 0x53), (0x1d4b6, 0x1d4b9, 0x61), (0x1d4bb, 0x1d4bb, 0x66),
   (0x1d4bd, 0x1d4c3, 0x68), (0x1d4c5, 0x1d4cf, 0x70), (0x1d4d0, 0x1d4e9, 0x41),
   (0x1d4ea, 0x1d503, 0x61), (0x1d504, 0x1d505, 0x41), (0x1d507, 0x1d50a, 0x44),
   (0x1d50d, 0x1d514, 0x4a), (0x1d516, 0x1d51c, 0x53), (0x1d51e, 0x1d537, 0x61),
   (0x1d538, 0x1d539, 0x41), (0x1d53b, 0x1d53e, 0x44), (0x1d540, 0x1d544, 0x49),
   (0x1d546, 0x1d546, 0x4f), (0x1d54a, 0x1d550, 0x53), (0x1d552, 0x1d56b, 0x61),
   (0x1d56c, 0x1d585, 0x41), (0x1d586, 0x1d59f, 0x61), (0x1d5a0, 0x1d5b9, 0x41),
   (0x1d5ba, 0x1d5d3, 0x61), (0x1d5d4, 0x1d5ed, 0x41), (0x1d5ee, 0x1d607, 0x61),
   (0x1d608, 0x1d621, 0x41), (0x1d622, 0x1d63b, 0x61), (0x1d63c, 0x1d655, 0x41),
   (0x1d656, 0x1d66f, 0x61), (0x1d670, 0x1d689, 0x41), (0x1d68a, 0x1d6a3, 0x61),
   (0x1d7ce, 0x1d7d7, 0x30), (0x1d7d8, 0x1d7e1, 0x30), (0x1d7e2, 0x1d7eb, 0x30),
   (0x1d7ec, 0x1d7f5, 0x30), (0x1d7f6, 0x1d7ff, 0x30), (0x1f12b, 0x1f12b, 0x43),
   (0x1f12c, 0x1f12c, 0x52), (0x1f130, 0x1f149, 0x41), (0x1fbf0, 0x1fbf9, 0x30)]

/-- Characters that decompose into several ASCII characters. -/
def spelled : List (Nat × String) :=
  [(0x132, "IJ"), (0x133, "ij"), (0x1c7, "LJ"), (0x1c8, "Lj"), (0x1c9, "lj"), (0x1ca, "NJ"),
   (0x1cb, "Nj"), (0x1cc, "nj"), (0x1f1, "DZ"), (0x1f2, "Dz"), (0x1f3, "dz"), (0x2025, ".."),
   (0x2026, "..."), (0x203c, "!!"), (0x2047, "??"), (0x2048, "?!"), (0x2049, "!?"), (0x20a8, "Rs"),
   (0x2100, "a/c"), (0x2101, "a/s"), (0x2105, "c/o"), (0x2106, "c/u"), (0x2116, "No"),
   (0x2120, "SM"), (0x2121, "TEL"), (0x2122, "TM"), (0x213b, "FAX"), (0x2161, "II"),
   (0x2162, "III"), (0x2163, "IV"), (0x2165, "VI"), (0x2166, "VII"), (0x2167, "VIII"),
   (0x2168, "IX"), (0x216a, "XI"), (0x216b, "XII"), (0x2171, "ii"), (0x2172, "iii"), (0x2173, "iv"),
   (0x2175, "vi"), (0x2176, "vii"), (0x2177, "viii"), (0x2178, "ix"), (0x217a, "xi"),
   (0x217b, "xii"), (0x2469, "10"), (0x246a, "11"), (0x246b, "12"), (0x246c, "13"), (0x246d, "14"),
   (0x246e, "15"), (0x246f, "16"), (0x2470, "17"), (0x2471, "18"), (0x2472, "19"), (0x2473, "20"),
   (0x2474, "(1)"), (0x2475, "(2)"), (0x2476, "(3)"), (0x2477, "(4)"), (0x2478, "(5)"),
   (0x2479, "(6)"), (0x247a, "(7)"), (0x247b, "(8)"), (0x247c, "(9)"), (0x247d, "(10)"),
   (0x247e, "(11)"), (0x247f, "(12)"), (0x2480, "(13)"), (0x2481, "(14)"), (0x2482, "(15)"),
   (0x2483, "(16)"), (0x2484, "(17)"), (0x2485, "(18)"), (0x2486, "(19)"), (0x2487, "(20)"),
   (0x2488, "1."), (0x2489, "2."), (0x248a, "3."), (0x248b, "4."), (0x248c, "5."), (0x248d, "6."),
   (0x248e, "7."), (0x248f, "8."), (0x2490, "9."), (0x2491, "10."), (0x2492, "11."),
   (0x2493, "12."), (0x2494, "13."), (0x2495, "14."), (0x2496, "15."), (0x2497, "16."),
   (0x2498, "17."), (0x2499, "18."), (0x249a, "19."), (0x249b, "20."), (0x249c, "(a)"),
   (0x249d, "(b)"), (0x249e, "(c)"), (0x249f, "(d)"), (0x24a0, "(e)"), (0x24a1, "(f)"),
   (0x24a2, "(g)"), (0x24a3, "(h)"), (0x24a4, "(i)"), (0x24a5, "(j)"), (0x24a6, "(k)"),
   (0x24a7, "(l)"), (0x24a8, "(m)"), (0x24a9, "(n)"), (0x24aa, "(o)"), (0x24ab, "(p)"),
   (0x24ac, "(q)"), (0x24ad, "(r)"), (0x24ae, "(s)"), (0x24af, "(t)"), (0x24b0, "(u)"),
   (0x24b1, "(v)"), (0x24b2, "(w)"), (0x24b3, "(x)"), (0x24b4, "(y)"), (0x24b5, "(z)"),
   (0x2a74, "::="), (0x2a75, "=="), (0x2a76, "==="), (0x3250, "PTE"), (0x3251, "21"),
   (0x3252, "22"), (0x3253, "23"), (0x3254, "24"), (0x3255, "25"), (0x3256, "26"), (0x3257, "27"),
   (0x3258, "28"), (0x3259, "29"), (0x325a, "30"), (0x325b, "31"), (0x325c, "32"), (0x325d, "33"),
   (0x325e, "34"), (0x325f, "35"), (0x32b1, "36"), (0x32b2, "37"), (0x32b3, "38"), (0x32b4, "39"),
   (0x32b5, "40"), (0x32b6, "41"), (0x32b7, "42"), (0x32b8, "43"), (0x32b9, "44"), (0x32ba, "45"),
   (0x32bb, "46"), (0x32bc, "47"), (0x32bd, "48"), (0x32be, "49"), (0x32bf, "50"), (0x32cc, "Hg"),
   (0x32cd, "erg"), (0x32ce, "eV"), (0x32cf, "LTD"), (0x3371, "hPa"), (0x3372, "da"),
   (0x3373, "AU"), (0x3374, "bar"), (0x3375, "oV"), (0x3376, "pc"), (0x3377, "dm"), (0x3378, "dm2"),
   (0x3379, "dm3"), (0x337a, "IU"), (0x3380, "pA"), (0x3381, "nA"), (0x3383, "mA"), (0x3384, "kA"),
   (0x3385, "KB"), (0x3386, "MB"), (0x3387, "GB"), (0x3388, "cal"), (0x3389, "kcal"),
   (0x338a, "pF"), (0x338b, "nF"), (0x338e, "mg"), (0x338f, "kg"), (0x3390, "Hz"), (0x3391, "kHz"),
   (0x3392, "MHz"), (0x3393, "GHz"), (0x3394, "THz"), (0x3396, "ml"), (0x3397, "dl"),
   (0x3398, "kl"), (0x3399, "fm"), (0x339a, "nm"), (0x339c, "mm"), (0x339d, "cm"), (0x339e, "km"),
   (0x339f, "mm2"), (0x33a0, "cm2"), (0x33a1, "m2"), (0x33a2, "km2"), (0x33a3, "mm3"),
   (0x33a4, "cm3"), (0x33a5, "m3"), (0x33a6, "km3"), (0x33a9, "Pa"), (0x33aa, "kPa"),
   (0x33ab, "MPa"), (0x33ac, "GPa"), (0x33ad, "rad"), (0x33b0, "ps"), (0x33b1, "ns"),
   (0x33b3, "ms"), (0x33b4, "pV"), (0x33b5, "nV"), (0x33b7, "mV"), (0x33b8, "kV"), (0x33b9, "MV"),
   (0x33ba, "pW"), (0x33bb, "nW"), (0x33bd, "mW"), (0x33be, "kW"), (0x33bf, "MW"), (0x33c2, "a.m."),
   (0x33c3, "Bq"), (0x33c4, "cc"), (0x33c5, "cd"), (0x33c7, "Co."), (0x33c8, "dB"), (0x33c9, "Gy"),
   (0x33ca, "ha"), (0x33cb, "HP"), (0x33cc, "in"), (0x33cd, "KK"), (0x33ce, "KM"), (0x33cf, "kt"),
   (0x33d0, "lm"), (0x33d1, "ln"), (0x33d2, "log"), (0x33d3, "lx"), (0x33d4, "mb"), (0x33d5, "mil"),
   (0x33d6, "mol"), (0x33d7, "PH"), (0x33d8, "p.m."), (0x33d9, "PPM"), (0x33da, "PR"),
   (0x33db, "sr"), (0x33dc, "Sv"), (0x33dd, "Wb"), (0x33ff, "gal"), (0xfb00, "ff"), (0xfb01, "fi"),
   (0xfb02, "fl"), (0xfb03, "ffi"), (0xfb04, "ffl"), (0xfb05, "st"), (0xfb06, "st"),
   (0xfe19, "..."), (0xfe30, ".."), (0x1f100, "0."), (0x1f101, "0,"), (0x1f102, "1,"),
   (0x1f103, "2,"), (0x1f104, "3,"), (0x1f105, "4,"), (0x1f106, "5,"), (0x1f107, "6,"),
   (0x1f108, "7,"), (0x1f109, "8,"), (0x1f10a, "9,"), (0x1f110, "(A)"), (0x1f111, "(B)"),
   (0x1f112, "(C)"), (0x1f113, "(D)"), (0x1f114, "(E)"), (0x1f115, "(F)"), (0x1f116, "(G)"),
   (0x1f117, "(H)"), (0x1f118, "(I)"), (0x1f119, "(J)"), (0x1f11a, "(K)"), (0x1f11b, "(L)"),
   (0x1f11c, "(M)"), (0x1f11d, "(N)"), (0x1f11e, "(O)"), (0x1f11f, "(P)"), (0x1f120, "(Q)"),
   (0x1f121, "(R)"), (0x1f122, "(S)"), (0x1f123, "(T)"), (0x1f124, "(U)"), (0x1f125, "(V)"),
   (0x1f126, "(W)"), (0x1f127, "(X)"), (0x1f128, "(Y)"), (0x1f129, "(Z)"), (0x1f12d, "CD"),
   (0x1f12e, "WZ"), (0x1f14a, "HV"), (0x1f14b, "MV"), (0x1f14c, "SD"), (0x1f14d, "SS"),
   (0x1f14e, "PPV"), (0x1f14f, "WC"), (0x1f16a, "MC"), (0x1f16b, "MD"), (0x1f16c, "MR"),
   (0x1f190, "DJ")]

/-- The decomposition of one character. -/
def decomposeChar (c : Char) : Text :=
  let n := c.toNat
  if n < 128 then [c]
  else if blanks.contains n then [' ']
  else match runs.find? fun r => r.1 ≤ n && n ≤ r.2.1 with
    | some (first, _, ascii) => [Char.ofNat (ascii + (n - first))]
    | none => match spelled.find? (·.1 = n) with
      | some (_, word) => word.toList
      | none => [c]

/-- The decomposition of a text. -/
def decompose (t : Text) : Text :=
  t.flatMap decomposeChar

end Keyring.Text.Compatibility
