/-!
# The rules of case folding

The mapping of Unicode 14.0 that forgets the difference between capital and small letters: its
common and full foldings, in which a character may fold to up to three.

- `FoldRule`: how a run of code points folds.
- `foldRules`: all rules, by ascending code point. A code point that no rule covers folds to itself.
-/

namespace CommandBar

/-- How some code points fold. -/
inductive FoldRule where
  /-- Every `stride`-th code point from `first` to `last` folds to the one at the same distance
  above `target`; those in between fold to themselves. -/
  | shift (first last stride target : Nat)
  /-- The code point folds to several. -/
  | expand (code : Nat) (targets : List Nat)
  deriving Repr, DecidableEq

/-- Every rule, by ascending code point; no two rules meet. -/
def foldRules : List FoldRule :=
  [.shift 0x41 0x5A 1 0x61, .shift 0xB5 0xB5 1 0x3BC, .shift 0xC0 0xD6 1 0xE0,
    .shift 0xD8 0xDE 1 0xF8, .expand 0xDF [0x73, 0x73], .shift 0x100 0x12E 2 0x101,
    .expand 0x130 [0x69, 0x307], .shift 0x132 0x136 2 0x133, .shift 0x139 0x147 2 0x13A,
    .expand 0x149 [0x2BC, 0x6E], .shift 0x14A 0x176 2 0x14B, .shift 0x178 0x178 1 0xFF,
    .shift 0x179 0x17D 2 0x17A, .shift 0x17F 0x17F 1 0x73, .shift 0x181 0x181 1 0x253,
    .shift 0x182 0x184 2 0x183, .shift 0x186 0x186 1 0x254, .shift 0x187 0x187 1 0x188,
    .shift 0x189 0x18A 1 0x256, .shift 0x18B 0x18B 1 0x18C, .shift 0x18E 0x18E 1 0x1DD,
    .shift 0x18F 0x18F 1 0x259, .shift 0x190 0x190 1 0x25B, .shift 0x191 0x191 1 0x192,
    .shift 0x193 0x193 1 0x260, .shift 0x194 0x194 1 0x263, .shift 0x196 0x196 1 0x269,
    .shift 0x197 0x197 1 0x268, .shift 0x198 0x198 1 0x199, .shift 0x19C 0x19C 1 0x26F,
    .shift 0x19D 0x19D 1 0x272, .shift 0x19F 0x19F 1 0x275, .shift 0x1A0 0x1A4 2 0x1A1,
    .shift 0x1A6 0x1A6 1 0x280, .shift 0x1A7 0x1A7 1 0x1A8, .shift 0x1A9 0x1A9 1 0x283,
    .shift 0x1AC 0x1AC 1 0x1AD, .shift 0x1AE 0x1AE 1 0x288, .shift 0x1AF 0x1AF 1 0x1B0,
    .shift 0x1B1 0x1B2 1 0x28A, .shift 0x1B3 0x1B5 2 0x1B4, .shift 0x1B7 0x1B7 1 0x292,
    .shift 0x1B8 0x1B8 1 0x1B9, .shift 0x1BC 0x1BC 1 0x1BD, .shift 0x1C4 0x1C4 1 0x1C6,
    .shift 0x1C5 0x1C5 1 0x1C6, .shift 0x1C7 0x1C7 1 0x1C9, .shift 0x1C8 0x1C8 1 0x1C9,
    .shift 0x1CA 0x1CA 1 0x1CC, .shift 0x1CB 0x1DB 2 0x1CC, .shift 0x1DE 0x1EE 2 0x1DF,
    .expand 0x1F0 [0x6A, 0x30C], .shift 0x1F1 0x1F1 1 0x1F3, .shift 0x1F2 0x1F4 2 0x1F3,
    .shift 0x1F6 0x1F6 1 0x195, .shift 0x1F7 0x1F7 1 0x1BF, .shift 0x1F8 0x21E 2 0x1F9,
    .shift 0x220 0x220 1 0x19E, .shift 0x222 0x232 2 0x223, .shift 0x23A 0x23A 1 0x2C65,
    .shift 0x23B 0x23B 1 0x23C, .shift 0x23D 0x23D 1 0x19A, .shift 0x23E 0x23E 1 0x2C66,
    .shift 0x241 0x241 1 0x242, .shift 0x243 0x243 1 0x180, .shift 0x244 0x244 1 0x289,
    .shift 0x245 0x245 1 0x28C, .shift 0x246 0x24E 2 0x247, .shift 0x345 0x345 1 0x3B9,
    .shift 0x370 0x372 2 0x371, .shift 0x376 0x376 1 0x377, .shift 0x37F 0x37F 1 0x3F3,
    .shift 0x386 0x386 1 0x3AC, .shift 0x388 0x38A 1 0x3AD, .shift 0x38C 0x38C 1 0x3CC,
    .shift 0x38E 0x38F 1 0x3CD, .expand 0x390 [0x3B9, 0x308, 0x301], .shift 0x391 0x3A1 1 0x3B1,
    .shift 0x3A3 0x3AB 1 0x3C3, .expand 0x3B0 [0x3C5, 0x308, 0x301], .shift 0x3C2 0x3C2 1 0x3C3,
    .shift 0x3CF 0x3CF 1 0x3D7, .shift 0x3D0 0x3D0 1 0x3B2, .shift 0x3D1 0x3D1 1 0x3B8,
    .shift 0x3D5 0x3D5 1 0x3C6, .shift 0x3D6 0x3D6 1 0x3C0, .shift 0x3D8 0x3EE 2 0x3D9,
    .shift 0x3F0 0x3F0 1 0x3BA, .shift 0x3F1 0x3F1 1 0x3C1, .shift 0x3F4 0x3F4 1 0x3B8,
    .shift 0x3F5 0x3F5 1 0x3B5, .shift 0x3F7 0x3F7 1 0x3F8, .shift 0x3F9 0x3F9 1 0x3F2,
    .shift 0x3FA 0x3FA 1 0x3FB, .shift 0x3FD 0x3FF 1 0x37B, .shift 0x400 0x40F 1 0x450,
    .shift 0x410 0x42F 1 0x430, .shift 0x460 0x480 2 0x461, .shift 0x48A 0x4BE 2 0x48B,
    .shift 0x4C0 0x4C0 1 0x4CF, .shift 0x4C1 0x4CD 2 0x4C2, .shift 0x4D0 0x52E 2 0x4D1,
    .shift 0x531 0x556 1 0x561, .expand 0x587 [0x565, 0x582], .shift 0x10A0 0x10C5 1 0x2D00,
    .shift 0x10C7 0x10C7 1 0x2D27, .shift 0x10CD 0x10CD 1 0x2D2D, .shift 0x13F8 0x13FD 1 0x13F0,
    .shift 0x1C80 0x1C80 1 0x432, .shift 0x1C81 0x1C81 1 0x434, .shift 0x1C82 0x1C82 1 0x43E,
    .shift 0x1C83 0x1C84 1 0x441, .shift 0x1C85 0x1C85 1 0x442, .shift 0x1C86 0x1C86 1 0x44A,
    .shift 0x1C87 0x1C87 1 0x463, .shift 0x1C88 0x1C88 1 0xA64B, .shift 0x1C90 0x1CBA 1 0x10D0,
    .shift 0x1CBD 0x1CBF 1 0x10FD, .shift 0x1E00 0x1E94 2 0x1E01, .expand 0x1E96 [0x68, 0x331],
    .expand 0x1E97 [0x74, 0x308], .expand 0x1E98 [0x77, 0x30A], .expand 0x1E99 [0x79, 0x30A],
    .expand 0x1E9A [0x61, 0x2BE], .shift 0x1E9B 0x1E9B 1 0x1E61, .expand 0x1E9E [0x73, 0x73],
    .shift 0x1EA0 0x1EFE 2 0x1EA1, .shift 0x1F08 0x1F0F 1 0x1F00, .shift 0x1F18 0x1F1D 1 0x1F10,
    .shift 0x1F28 0x1F2F 1 0x1F20, .shift 0x1F38 0x1F3F 1 0x1F30, .shift 0x1F48 0x1F4D 1 0x1F40,
    .expand 0x1F50 [0x3C5, 0x313], .expand 0x1F52 [0x3C5, 0x313, 0x300],
    .expand 0x1F54 [0x3C5, 0x313, 0x301], .expand 0x1F56 [0x3C5, 0x313, 0x342],
    .shift 0x1F59 0x1F5F 2 0x1F51, .shift 0x1F68 0x1F6F 1 0x1F60, .expand 0x1F80 [0x1F00, 0x3B9],
    .expand 0x1F81 [0x1F01, 0x3B9], .expand 0x1F82 [0x1F02, 0x3B9],
    .expand 0x1F83 [0x1F03, 0x3B9], .expand 0x1F84 [0x1F04, 0x3B9],
    .expand 0x1F85 [0x1F05, 0x3B9], .expand 0x1F86 [0x1F06, 0x3B9],
    .expand 0x1F87 [0x1F07, 0x3B9], .expand 0x1F88 [0x1F00, 0x3B9],
    .expand 0x1F89 [0x1F01, 0x3B9], .expand 0x1F8A [0x1F02, 0x3B9],
    .expand 0x1F8B [0x1F03, 0x3B9], .expand 0x1F8C [0x1F04, 0x3B9],
    .expand 0x1F8D [0x1F05, 0x3B9], .expand 0x1F8E [0x1F06, 0x3B9],
    .expand 0x1F8F [0x1F07, 0x3B9], .expand 0x1F90 [0x1F20, 0x3B9],
    .expand 0x1F91 [0x1F21, 0x3B9], .expand 0x1F92 [0x1F22, 0x3B9],
    .expand 0x1F93 [0x1F23, 0x3B9], .expand 0x1F94 [0x1F24, 0x3B9],
    .expand 0x1F95 [0x1F25, 0x3B9], .expand 0x1F96 [0x1F26, 0x3B9],
    .expand 0x1F97 [0x1F27, 0x3B9], .expand 0x1F98 [0x1F20, 0x3B9],
    .expand 0x1F99 [0x1F21, 0x3B9], .expand 0x1F9A [0x1F22, 0x3B9],
    .expand 0x1F9B [0x1F23, 0x3B9], .expand 0x1F9C [0x1F24, 0x3B9],
    .expand 0x1F9D [0x1F25, 0x3B9], .expand 0x1F9E [0x1F26, 0x3B9],
    .expand 0x1F9F [0x1F27, 0x3B9], .expand 0x1FA0 [0x1F60, 0x3B9],
    .expand 0x1FA1 [0x1F61, 0x3B9], .expand 0x1FA2 [0x1F62, 0x3B9],
    .expand 0x1FA3 [0x1F63, 0x3B9], .expand 0x1FA4 [0x1F64, 0x3B9],
    .expand 0x1FA5 [0x1F65, 0x3B9], .expand 0x1FA6 [0x1F66, 0x3B9],
    .expand 0x1FA7 [0x1F67, 0x3B9], .expand 0x1FA8 [0x1F60, 0x3B9],
    .expand 0x1FA9 [0x1F61, 0x3B9], .expand 0x1FAA [0x1F62, 0x3B9],
    .expand 0x1FAB [0x1F63, 0x3B9], .expand 0x1FAC [0x1F64, 0x3B9],
    .expand 0x1FAD [0x1F65, 0x3B9], .expand 0x1FAE [0x1F66, 0x3B9],
    .expand 0x1FAF [0x1F67, 0x3B9], .expand 0x1FB2 [0x1F70, 0x3B9], .expand 0x1FB3 [0x3B1, 0x3B9],
    .expand 0x1FB4 [0x3AC, 0x3B9], .expand 0x1FB6 [0x3B1, 0x342],
    .expand 0x1FB7 [0x3B1, 0x342, 0x3B9], .shift 0x1FB8 0x1FB9 1 0x1FB0,
    .shift 0x1FBA 0x1FBB 1 0x1F70, .expand 0x1FBC [0x3B1, 0x3B9], .shift 0x1FBE 0x1FBE 1 0x3B9,
    .expand 0x1FC2 [0x1F74, 0x3B9], .expand 0x1FC3 [0x3B7, 0x3B9], .expand 0x1FC4 [0x3AE, 0x3B9],
    .expand 0x1FC6 [0x3B7, 0x342], .expand 0x1FC7 [0x3B7, 0x342, 0x3B9],
    .shift 0x1FC8 0x1FCB 1 0x1F72, .expand 0x1FCC [0x3B7, 0x3B9],
    .expand 0x1FD2 [0x3B9, 0x308, 0x300], .expand 0x1FD3 [0x3B9, 0x308, 0x301],
    .expand 0x1FD6 [0x3B9, 0x342], .expand 0x1FD7 [0x3B9, 0x308, 0x342],
    .shift 0x1FD8 0x1FD9 1 0x1FD0, .shift 0x1FDA 0x1FDB 1 0x1F76,
    .expand 0x1FE2 [0x3C5, 0x308, 0x300], .expand 0x1FE3 [0x3C5, 0x308, 0x301],
    .expand 0x1FE4 [0x3C1, 0x313], .expand 0x1FE6 [0x3C5, 0x342],
    .expand 0x1FE7 [0x3C5, 0x308, 0x342], .shift 0x1FE8 0x1FE9 1 0x1FE0,
    .shift 0x1FEA 0x1FEB 1 0x1F7A, .shift 0x1FEC 0x1FEC 1 0x1FE5, .expand 0x1FF2 [0x1F7C, 0x3B9],
    .expand 0x1FF3 [0x3C9, 0x3B9], .expand 0x1FF4 [0x3CE, 0x3B9], .expand 0x1FF6 [0x3C9, 0x342],
    .expand 0x1FF7 [0x3C9, 0x342, 0x3B9], .shift 0x1FF8 0x1FF9 1 0x1F78,
    .shift 0x1FFA 0x1FFB 1 0x1F7C, .expand 0x1FFC [0x3C9, 0x3B9], .shift 0x2126 0x2126 1 0x3C9,
    .shift 0x212A 0x212A 1 0x6B, .shift 0x212B 0x212B 1 0xE5, .shift 0x2132 0x2132 1 0x214E,
    .shift 0x2160 0x216F 1 0x2170, .shift 0x2183 0x2183 1 0x2184, .shift 0x24B6 0x24CF 1 0x24D0,
    .shift 0x2C00 0x2C2F 1 0x2C30, .shift 0x2C60 0x2C60 1 0x2C61, .shift 0x2C62 0x2C62 1 0x26B,
    .shift 0x2C63 0x2C63 1 0x1D7D, .shift 0x2C64 0x2C64 1 0x27D, .shift 0x2C67 0x2C6B 2 0x2C68,
    .shift 0x2C6D 0x2C6D 1 0x251, .shift 0x2C6E 0x2C6E 1 0x271, .shift 0x2C6F 0x2C6F 1 0x250,
    .shift 0x2C70 0x2C70 1 0x252, .shift 0x2C72 0x2C72 1 0x2C73, .shift 0x2C75 0x2C75 1 0x2C76,
    .shift 0x2C7E 0x2C7F 1 0x23F, .shift 0x2C80 0x2CE2 2 0x2C81, .shift 0x2CEB 0x2CED 2 0x2CEC,
    .shift 0x2CF2 0x2CF2 1 0x2CF3, .shift 0xA640 0xA66C 2 0xA641, .shift 0xA680 0xA69A 2 0xA681,
    .shift 0xA722 0xA72E 2 0xA723, .shift 0xA732 0xA76E 2 0xA733, .shift 0xA779 0xA77B 2 0xA77A,
    .shift 0xA77D 0xA77D 1 0x1D79, .shift 0xA77E 0xA786 2 0xA77F, .shift 0xA78B 0xA78B 1 0xA78C,
    .shift 0xA78D 0xA78D 1 0x265, .shift 0xA790 0xA792 2 0xA791, .shift 0xA796 0xA7A8 2 0xA797,
    .shift 0xA7AA 0xA7AA 1 0x266, .shift 0xA7AB 0xA7AB 1 0x25C, .shift 0xA7AC 0xA7AC 1 0x261,
    .shift 0xA7AD 0xA7AD 1 0x26C, .shift 0xA7AE 0xA7AE 1 0x26A, .shift 0xA7B0 0xA7B0 1 0x29E,
    .shift 0xA7B1 0xA7B1 1 0x287, .shift 0xA7B2 0xA7B2 1 0x29D, .shift 0xA7B3 0xA7B3 1 0xAB53,
    .shift 0xA7B4 0xA7C2 2 0xA7B5, .shift 0xA7C4 0xA7C4 1 0xA794, .shift 0xA7C5 0xA7C5 1 0x282,
    .shift 0xA7C6 0xA7C6 1 0x1D8E, .shift 0xA7C7 0xA7C9 2 0xA7C8, .shift 0xA7D0 0xA7D0 1 0xA7D1,
    .shift 0xA7D6 0xA7D8 2 0xA7D7, .shift 0xA7F5 0xA7F5 1 0xA7F6, .shift 0xAB70 0xABBF 1 0x13A0,
    .expand 0xFB00 [0x66, 0x66], .expand 0xFB01 [0x66, 0x69], .expand 0xFB02 [0x66, 0x6C],
    .expand 0xFB03 [0x66, 0x66, 0x69], .expand 0xFB04 [0x66, 0x66, 0x6C],
    .expand 0xFB05 [0x73, 0x74], .expand 0xFB06 [0x73, 0x74], .expand 0xFB13 [0x574, 0x576],
    .expand 0xFB14 [0x574, 0x565], .expand 0xFB15 [0x574, 0x56B], .expand 0xFB16 [0x57E, 0x576],
    .expand 0xFB17 [0x574, 0x56D], .shift 0xFF21 0xFF3A 1 0xFF41,
    .shift 0x10400 0x10427 1 0x10428, .shift 0x104B0 0x104D3 1 0x104D8,
    .shift 0x10570 0x1057A 1 0x10597, .shift 0x1057C 0x1058A 1 0x105A3,
    .shift 0x1058C 0x10592 1 0x105B3, .shift 0x10594 0x10595 1 0x105BB,
    .shift 0x10C80 0x10CB2 1 0x10CC0, .shift 0x118A0 0x118BF 1 0x118C0,
    .shift 0x16E40 0x16E5F 1 0x16E60, .shift 0x1E900 0x1E921 1 0x1E922]

end CommandBar
