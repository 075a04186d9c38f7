/-
Azsl.Uri.Domain.Mapping — what characters stand for in domains.

Domains are compared without regard to case, width and font: before anything else a capital
letter is taken for the small one, a letter in a circle for the letter itself, and characters
that only ask for a certain look are left out. Some characters may not stand in a domain at
all. The tables are those of Unicode 17 for characters outside of ASCII.
-/
import Azsl.Text.Ranges

namespace Azsl

namespace Domain

/-- Ranges in which capital and small letters take turns, from the first capital letter to the
last one. -/
def alternating : List (Nat × Nat) :=
  [(0x0100, 0x012E), (0x0134, 0x0136), (0x0139, 0x013D), (0x0141, 0x0147), (0x014A, 0x0176),
   (0x0179, 0x017D), (0x0182, 0x0184), (0x0187, 0x0187), (0x018B, 0x018B), (0x0191, 0x0191),
   (0x0198, 0x0198), (0x01A0, 0x01A4), (0x01A7, 0x01A7), (0x01AC, 0x01AC), (0x01AF, 0x01AF),
   (0x01B3, 0x01B5), (0x01B8, 0x01B8), (0x01BC, 0x01BC), (0x01CD, 0x01DB), (0x01DE, 0x01EE),
   (0x01F4, 0x01F4), (0x01F8, 0x021E), (0x0222, 0x0232), (0x023B, 0x023B), (0x0241, 0x0241),
   (0x0246, 0x024E), (0x0370, 0x0372), (0x0376, 0x0376), (0x03D8, 0x03EE), (0x03F7, 0x03F7),
   (0x03FA, 0x03FA), (0x0460, 0x0480), (0x048A, 0x04BE), (0x04C1, 0x04CD), (0x04D0, 0x052E),
   (0x1C89, 0x1C89), (0x1E00, 0x1E94), (0x1EA0, 0x1EFE), (0x2183, 0x2183), (0x2C60, 0x2C60),
   (0x2C67, 0x2C6B), (0x2C72, 0x2C72), (0x2C75, 0x2C75), (0x2C80, 0x2CE2), (0x2CEB, 0x2CED),
   (0x2CF2, 0x2CF2), (0xA640, 0xA66C), (0xA680, 0xA69A), (0xA722, 0xA72E), (0xA732, 0xA76E),
   (0xA779, 0xA77B), (0xA77E, 0xA786), (0xA78B, 0xA78B), (0xA790, 0xA792), (0xA796, 0xA7A8),
   (0xA7B4, 0xA7C2), (0xA7C7, 0xA7C9), (0xA7CC, 0xA7DA), (0xA7F5, 0xA7F5)]

/-- Ranges that stand for as many characters in a row, with the first of these. -/
def shifted : List (Nat × Nat × Nat) :=
  [(0x00C0, 0x00D6, 0x00E0), (0x00D8, 0x00DE, 0x00F8), (0x0388, 0x038A, 0x03AD),
   (0x0391, 0x03A1, 0x03B1), (0x03A3, 0x03AB, 0x03C3), (0x03FD, 0x03FF, 0x037B),
   (0x0400, 0x040F, 0x0450), (0x0410, 0x042F, 0x0430), (0x0531, 0x0556, 0x0561),
   (0x10A0, 0x10C5, 0x2D00), (0x13F8, 0x13FD, 0x13F0), (0x1C90, 0x1CBA, 0x10D0),
   (0x1CBD, 0x1CBF, 0x10FD), (0x1D33, 0x1D3A, 0x0067), (0x1D5D, 0x1D5F, 0x03B2),
   (0x1DA4, 0x1DA6, 0x0268), (0x1DAE, 0x1DB1, 0x0272), (0x1DBC, 0x1DBE, 0x0290),
   (0x1F08, 0x1F0F, 0x1F00), (0x1F18, 0x1F1D, 0x1F10), (0x1F28, 0x1F2F, 0x1F20),
   (0x1F38, 0x1F3F, 0x1F30), (0x1F48, 0x1F4D, 0x1F40), (0x1F68, 0x1F6F, 0x1F60),
   (0x2074, 0x2079, 0x0034), (0x2080, 0x2089, 0x0030), (0x2096, 0x2099, 0x006B),
   (0x2119, 0x211B, 0x0070), (0x2135, 0x2138, 0x05D0), (0x2460, 0x2468, 0x0031),
   (0x24B6, 0x24CF, 0x0061), (0x24D0, 0x24E9, 0x0061), (0x2C00, 0x2C2F, 0x2C30),
   (0x3137, 0x3139, 0x1103), (0x313A, 0x313F, 0x11B0), (0x3141, 0x3143, 0x1106),
   (0x3145, 0x314E, 0x1109), (0x314F, 0x3163, 0x1161), (0x3178, 0x317C, 0x112B),
   (0x3184, 0x3186, 0x1157), (0x3263, 0x3265, 0x1105), (0x3269, 0x326D, 0x110E),
   (0x32E4, 0x32E9, 0x30CA), (0x32EE, 0x32F2, 0x30DE), (0x32F5, 0x32FA, 0x30E8),
   (0x32FB, 0x32FE, 0x30EF), (0xAB70, 0xABBF, 0x13A0), (0xFB24, 0xFB26, 0x05DB),
   (0xFE41, 0xFE44, 0x300C), (0xFF01, 0xFF20, 0x0021), (0xFF21, 0xFF3A, 0x0061),
   (0xFF3B, 0xFF5E, 0x005B), (0xFF85, 0xFF8A, 0x30CA), (0xFF8F, 0xFF93, 0x30DE),
   (0xFF96, 0xFF9B, 0x30E8), (0xFFA7, 0xFFA9, 0x1103), (0xFFAA, 0xFFAF, 0x11B0),
   (0xFFB1, 0xFFB3, 0x1106), (0xFFB5, 0xFFBE, 0x1109), (0xFFC2, 0xFFC7, 0x1161),
   (0xFFCA, 0xFFCF, 0x1167), (0xFFD2, 0xFFD7, 0x116D), (0xFFDA, 0xFFDC, 0x1173),
   (0xFFE9, 0xFFEC, 0x2190), (0x10400, 0x10427, 0x10428), (0x104B0, 0x104D3, 0x104D8),
   (0x10570, 0x1057A, 0x10597), (0x1057C, 0x1058A, 0x105A3), (0x1058C, 0x10592, 0x105B3),
   (0x107B6, 0x107B8, 0x01C0), (0x10C80, 0x10CB2, 0x10CC0), (0x10D50, 0x10D65, 0x10D70),
   (0x118A0, 0x118BF, 0x118C0), (0x16E40, 0x16E5F, 0x16E60), (0x16EA0, 0x16EB8, 0x16EBB),
   (0x1CCD6, 0x1CCEF, 0x0061), (0x1CCF0, 0x1CCF9, 0x0030), (0x1D400, 0x1D419, 0x0061),
   (0x1D41A, 0x1D433, 0x0061), (0x1D434, 0x1D44D, 0x0061), (0x1D44E, 0x1D454, 0x0061),
   (0x1D456, 0x1D467, 0x0069), (0x1D468, 0x1D481, 0x0061), (0x1D482, 0x1D49B, 0x0061),
   (0x1D4A9, 0x1D4AC, 0x006E), (0x1D4AE, 0x1D4B5, 0x0073), (0x1D4B6, 0x1D4B9, 0x0061),
   (0x1D4BD, 0x1D4C3, 0x0068), (0x1D4C5, 0x1D4CF, 0x0070), (0x1D4D0, 0x1D4E9, 0x0061),
   (0x1D4EA, 0x1D503, 0x0061), (0x1D507, 0x1D50A, 0x0064), (0x1D50D, 0x1D514, 0x006A),
   (0x1D516, 0x1D51C, 0x0073), (0x1D51E, 0x1D537, 0x0061), (0x1D53B, 0x1D53E, 0x0064),
   (0x1D540, 0x1D544, 0x0069), (0x1D54A, 0x1D550, 0x0073), (0x1D552, 0x1D56B, 0x0061),
   (0x1D56C, 0x1D585, 0x0061), (0x1D586, 0x1D59F, 0x0061), (0x1D5A0, 0x1D5B9, 0x0061),
   (0x1D5BA, 0x1D5D3, 0x0061), (0x1D5D4, 0x1D5ED, 0x0061), (0x1D5EE, 0x1D607, 0x0061),
   (0x1D608, 0x1D621, 0x0061), (0x1D622, 0x1D63B, 0x0061), (0x1D63C, 0x1D655, 0x0061),
   (0x1D656, 0x1D66F, 0x0061), (0x1D670, 0x1D689, 0x0061), (0x1D68A, 0x1D6A3, 0x0061),
   (0x1D6A8, 0x1D6B8, 0x03B1), (0x1D6BA, 0x1D6C0, 0x03C3), (0x1D6C2, 0x1D6D2, 0x03B1),
   (0x1D6D4, 0x1D6DA, 0x03C3), (0x1D6E2, 0x1D6F2, 0x03B1), (0x1D6F4, 0x1D6FA, 0x03C3),
   (0x1D6FC, 0x1D70C, 0x03B1), (0x1D70E, 0x1D714, 0x03C3), (0x1D71C, 0x1D72C, 0x03B1),
   (0x1D72E, 0x1D734, 0x03C3), (0x1D736, 0x1D746, 0x03B1), (0x1D748, 0x1D74E, 0x03C3),
   (0x1D756, 0x1D766, 0x03B1), (0x1D768, 0x1D76E, 0x03C3), (0x1D770, 0x1D780, 0x03B1),
   (0x1D782, 0x1D788, 0x03C3), (0x1D790, 0x1D7A0, 0x03B1), (0x1D7A2, 0x1D7A8, 0x03C3),
   (0x1D7AA, 0x1D7BA, 0x03B1), (0x1D7BC, 0x1D7C2, 0x03C3), (0x1D7CE, 0x1D7D7, 0x0030),
   (0x1D7D8, 0x1D7E1, 0x0030), (0x1D7E2, 0x1D7EB, 0x0030), (0x1D7EC, 0x1D7F5, 0x0030),
   (0x1D7F6, 0x1D7FF, 0x0030), (0x1E030, 0x1E038, 0x0430), (0x1E039, 0x1E03B, 0x043A),
   (0x1E03C, 0x1E046, 0x043E), (0x1E051, 0x1E059, 0x0430), (0x1E05F, 0x1E064, 0x0443),
   (0x1E900, 0x1E921, 0x1E922), (0x1EE0A, 0x1EE0D, 0x0643), (0x1EE2A, 0x1EE2D, 0x0643),
   (0x1EE8B, 0x1EE8D, 0x0644), (0x1EEAB, 0x1EEAD, 0x0644), (0x1F130, 0x1F149, 0x0061),
   (0x1FBF0, 0x1FBF9, 0x0030)]

/-- Letters in a row, given by the first one, and what each of them stands for. -/
def replacedLetters : List (Nat × List Nat) :=
  [(0x00A0, [0x0020]), (0x00AA, [0x0061]), (0x00B2, [0x0032, 0x0033]), (0x00B5, [0x03BC]),
   (0x00B9, [0x0031, 0x006F]), (0x0178, [0x00FF]), (0x017F, [0x0073]), (0x0181, [0x0253]),
   (0x0186, [0x0254]), (0x0189, [0x0256, 0x0257]), (0x018E, [0x01DD, 0x0259, 0x025B]),
   (0x0193, [0x0260, 0x0263]), (0x0196, [0x0269, 0x0268]), (0x019C, [0x026F, 0x0272]),
   (0x019F, [0x0275]), (0x01A6, [0x0280]), (0x01A9, [0x0283]), (0x01AE, [0x0288]), (0x01B1, [0x028A,
       0x028B]), (0x01B7, [0x0292]), (0x01F6, [0x0195, 0x01BF]), (0x0220, [0x019E]),
   (0x023A, [0x2C65]), (0x023D, [0x019A, 0x2C66]), (0x0243, [0x0180, 0x0289, 0x028C]),
   (0x02B0, [0x0068, 0x0266, 0x006A, 0x0072, 0x0279, 0x027B, 0x0281, 0x0077, 0x0079]),
   (0x02E0, [0x0263, 0x006C, 0x0073, 0x0078, 0x0295]), (0x0340, [0x0300, 0x0301]),
   (0x0343, [0x0313]), (0x0345, [0x03B9]), (0x0374, [0x02B9]), (0x037E, [0x003B, 0x03F3]),
   (0x0386, [0x03AC, 0x00B7]), (0x038C, [0x03CC]), (0x038E, [0x03CD, 0x03CE]), (0x03CF, [0x03D7,
       0x03B2, 0x03B8, 0x03C5, 0x03CD, 0x03CB, 0x03C6, 0x03C0]), (0x03F0, [0x03BA, 0x03C1, 0x03C3]),
   (0x03F4, [0x03B8, 0x03B5]), (0x03F9, [0x03C3]), (0x04C0, [0x04CF]), (0x0F0C, [0x0F0B]),
   (0x10C7, [0x2D27]), (0x10CD, [0x2D2D]), (0x10FC, [0x10DC]), (0x1C80, [0x0432, 0x0434, 0x043E,
       0x0441, 0x0442, 0x0442, 0x044A, 0x0463, 0xA64B]), (0x1D2C, [0x0061, 0x00E6, 0x0062]),
   (0x1D30, [0x0064, 0x0065, 0x01DD]), (0x1D3C, [0x006F, 0x0223, 0x0070, 0x0072, 0x0074, 0x0075,
       0x0077, 0x0061, 0x0250, 0x0251, 0x1D02, 0x0062, 0x0064, 0x0065, 0x0259, 0x025B, 0x025C,
       0x0067]), (0x1D4F, [0x006B, 0x006D, 0x014B, 0x006F, 0x0254, 0x1D16, 0x1D17, 0x0070, 0x0074,
       0x0075, 0x1D1D, 0x026F, 0x0076, 0x1D25]), (0x1D60, [0x03C6, 0x03C7, 0x0069, 0x0072, 0x0075,
       0x0076, 0x03B2, 0x03B3, 0x03C1, 0x03C6, 0x03C7]), (0x1D78, [0x043D]), (0x1D9B, [0x0252,
       0x0063, 0x0255, 0x00F0, 0x025C, 0x0066, 0x025F, 0x0261, 0x0265]), (0x1DA7, [0x1D7B, 0x029D,
       0x026D, 0x1D85, 0x029F, 0x0271, 0x0270]), (0x1DB2, [0x0278, 0x0282, 0x0283, 0x01AB, 0x0289,
       0x028A, 0x1D1C, 0x028B, 0x028C, 0x007A]), (0x1DBF, [0x03B8]), (0x1E9B, [0x1E61]),
   (0x1E9E, [0x00DF]), (0x1F59, [0x1F51]), (0x1F5B, [0x1F53]), (0x1F5D, [0x1F55]),
   (0x1F5F, [0x1F57]), (0x1F71, [0x03AC]), (0x1F73, [0x03AD]), (0x1F75, [0x03AE]),
   (0x1F77, [0x03AF]), (0x1F79, [0x03CC]), (0x1F7B, [0x03CD]), (0x1F7D, [0x03CE]), (0x1FB8, [0x1FB0,
       0x1FB1, 0x1F70, 0x03AC]), (0x1FBE, [0x03B9]), (0x1FC8, [0x1F72, 0x03AD, 0x1F74, 0x03AE]),
   (0x1FD3, [0x0390]), (0x1FD8, [0x1FD0, 0x1FD1, 0x1F76, 0x03AF]), (0x1FE3, [0x03B0]),
   (0x1FE8, [0x1FE0, 0x1FE1, 0x1F7A, 0x03CD, 0x1FE5]), (0x1FEF, [0x0060]), (0x1FF8, [0x1F78, 0x03CC,
       0x1F7C, 0x03CE]), (0x2000, [0x0020, 0x0020, 0x0020, 0x0020, 0x0020, 0x0020, 0x0020, 0x0020,
       0x0020, 0x0020, 0x0020]), (0x2011, [0x2010]), (0x202F, [0x0020]), (0x205F, [0x0020]),
   (0x2070, [0x0030, 0x0069]), (0x207A, [0x002B, 0x2212, 0x003D, 0x0028, 0x0029, 0x006E]),
   (0x208A, [0x002B, 0x2212, 0x003D, 0x0028, 0x0029]), (0x2090, [0x0061, 0x0065, 0x006F, 0x0078,
       0x0259, 0x0068]), (0x209A, [0x0070, 0x0073, 0x0074]), (0x2102, [0x0063]), (0x2107, [0x025B]),
   (0x210A, [0x0067, 0x0068, 0x0068, 0x0068, 0x0068, 0x0127, 0x0069, 0x0069, 0x006C, 0x006C]),
   (0x2115, [0x006E]), (0x211C, [0x0072, 0x0072]), (0x2124, [0x007A]), (0x2126, [0x03C9]),
   (0x2128, [0x007A]), (0x212A, [0x006B, 0x00E5, 0x0062, 0x0063]), (0x212F, [0x0065, 0x0065, 0x0066,
       0x214E, 0x006D, 0x006F]), (0x2139, [0x0069]), (0x213C, [0x03C0, 0x03B3, 0x03B3, 0x03C0,
       0x2211]), (0x2145, [0x0064, 0x0064, 0x0065, 0x0069, 0x006A]), (0x2160, [0x0069]),
   (0x2164, [0x0076]), (0x2169, [0x0078]), (0x216C, [0x006C, 0x0063, 0x0064, 0x006D, 0x0069]),
   (0x2174, [0x0076]), (0x2179, [0x0078]), (0x217C, [0x006C, 0x0063, 0x0064, 0x006D]),
   (0x2329, [0x3008, 0x3009]), (0x24EA, [0x0030]), (0x2C62, [0x026B, 0x1D7D, 0x027D]),
   (0x2C6D, [0x0251, 0x0271, 0x0250, 0x0252]), (0x2C7C, [0x006A, 0x0076, 0x023F, 0x0240]),
   (0x2D6F, [0x2D61]), (0x3131, [0x1100, 0x1101, 0x11AA, 0x1102, 0x11AC, 0x11AD]),
   (0x3140, [0x111A]), (0x3144, [0x1121]), (0x3165, [0x1114, 0x1115, 0x11C7, 0x11C8, 0x11CC, 0x11CE,
       0x11D3, 0x11D7, 0x11D9, 0x111C, 0x11DD, 0x11DF, 0x111D, 0x111E, 0x1120, 0x1122, 0x1123,
       0x1127, 0x1129]), (0x317D, [0x1132, 0x1136, 0x1140, 0x1147, 0x114C, 0x11F1, 0x11F2]),
   (0x3187, [0x1184, 0x1185, 0x1188, 0x1191, 0x1192, 0x1194, 0x119E, 0x11A1]), (0x3192, [0x4E00,
       0x4E8C, 0x4E09, 0x56DB, 0x4E0A, 0x4E2D, 0x4E0B, 0x7532, 0x4E59, 0x4E19, 0x4E01, 0x5929,
       0x5730, 0x4EBA]), (0x3244, [0x554F, 0x5E7C, 0x6587, 0x7B8F]), (0x3260, [0x1100, 0x1102,
       0x1103]), (0x3266, [0x1109, 0x110B, 0x110C]), (0x326E, [0xAC00, 0xB098, 0xB2E4, 0xB77C,
       0xB9C8, 0xBC14, 0xC0AC, 0xC544, 0xC790, 0xCC28, 0xCE74, 0xD0C0, 0xD30C, 0xD558]),
   (0x327E, [0xC6B0]), (0x3280, [0x4E00, 0x4E8C, 0x4E09, 0x56DB, 0x4E94, 0x516D, 0x4E03, 0x516B,
       0x4E5D, 0x5341, 0x6708, 0x706B, 0x6C34, 0x6728, 0x91D1, 0x571F, 0x65E5, 0x682A, 0x6709,
       0x793E, 0x540D, 0x7279, 0x8CA1, 0x795D, 0x52B4, 0x79D8, 0x7537, 0x5973, 0x9069, 0x512A,
       0x5370, 0x6CE8, 0x9805, 0x4F11, 0x5199, 0x6B63, 0x4E0A, 0x4E2D, 0x4E0B, 0x5DE6, 0x53F3,
       0x533B, 0x5B97, 0x5B66, 0x76E3, 0x4F01, 0x8CC7, 0x5354, 0x591C]), (0x32D0, [0x30A2, 0x30A4,
       0x30A6, 0x30A8, 0x30AA, 0x30AB, 0x30AD, 0x30AF, 0x30B1, 0x30B3, 0x30B5, 0x30B7, 0x30B9,
       0x30BB, 0x30BD, 0x30BF, 0x30C1, 0x30C4, 0x30C6, 0x30C8]), (0x32EA, [0x30D2, 0x30D5, 0x30D8,
       0x30DB]), (0x32F3, [0x30E4, 0x30E6]), (0xA69C, [0x044A, 0x044C]), (0xA770, [0xA76F]),
   (0xA77D, [0x1D79]), (0xA78D, [0x0265]), (0xA7AA, [0x0266, 0x025C, 0x0261, 0x026C, 0x026A]),
   (0xA7B0, [0x029E, 0x0287, 0x029D, 0xAB53]), (0xA7C4, [0xA794, 0x0282, 0x1D8E]),
   (0xA7CB, [0x0264]), (0xA7DC, [0x019B]), (0xA7F1, [0x0073, 0x0063, 0x0066, 0x0071]),
   (0xA7F8, [0x0127, 0x0153]), (0xAB5C, [0xA727, 0xAB37, 0x026B, 0xAB52]), (0xAB69, [0x028D]),
   (0xFB20, [0x05E2, 0x05D0, 0x05D3, 0x05D4]), (0xFB27, [0x05E8, 0x05EA, 0x002B]), (0xFB50, [0x0671,
       0x0671, 0x067B, 0x067B, 0x067B, 0x067B, 0x067E, 0x067E, 0x067E, 0x067E, 0x0680, 0x0680,
       0x0680, 0x0680, 0x067A, 0x067A, 0x067A, 0x067A, 0x067F, 0x067F, 0x067F, 0x067F, 0x0679,
       0x0679, 0x0679, 0x0679, 0x06A4, 0x06A4, 0x06A4, 0x06A4, 0x06A6, 0x06A6, 0x06A6, 0x06A6,
       0x0684, 0x0684, 0x0684, 0x0684, 0x0683, 0x0683, 0x0683, 0x0683, 0x0686, 0x0686, 0x0686,
       0x0686, 0x0687, 0x0687, 0x0687, 0x0687, 0x068D, 0x068D, 0x068C, 0x068C, 0x068E, 0x068E,
       0x0688, 0x0688, 0x0698, 0x0698, 0x0691, 0x0691, 0x06A9, 0x06A9]), (0xFB90, [0x06A9, 0x06A9,
       0x06AF, 0x06AF, 0x06AF, 0x06AF, 0x06B3, 0x06B3, 0x06B3, 0x06B3, 0x06B1, 0x06B1, 0x06B1,
       0x06B1, 0x06BA, 0x06BA, 0x06BB, 0x06BB, 0x06BB, 0x06BB, 0x06C0, 0x06C0, 0x06C1, 0x06C1,
       0x06C1, 0x06C1, 0x06BE, 0x06BE, 0x06BE, 0x06BE, 0x06D2, 0x06D2, 0x06D3, 0x06D3]),
   (0xFBD3, [0x06AD, 0x06AD, 0x06AD, 0x06AD, 0x06C7, 0x06C7, 0x06C6, 0x06C6, 0x06C8, 0x06C8]),
   (0xFBDE, [0x06CB, 0x06CB, 0x06C5, 0x06C5, 0x06C9, 0x06C9, 0x06D0, 0x06D0, 0x06D0, 0x06D0, 0x0649,
       0x0649]), (0xFBFC, [0x06CC, 0x06CC, 0x06CC, 0x06CC]), (0xFE10, [0x002C, 0x3001]),
   (0xFE13, [0x003A, 0x003B, 0x0021, 0x003F, 0x3016, 0x3017]), (0xFE31, [0x2014, 0x2013, 0x005F,
       0x005F, 0x0028, 0x0029, 0x007B, 0x007D, 0x3014, 0x3015, 0x3010, 0x3011, 0x300A, 0x300B,
       0x3008, 0x3009]), (0xFE47, [0x005B, 0x005D]), (0xFE4D, [0x005F, 0x005F, 0x005F, 0x002C,
       0x3001]), (0xFE54, [0x003B, 0x003A, 0x003F, 0x0021, 0x2014, 0x0028, 0x0029, 0x007B, 0x007D,
       0x3014, 0x3015, 0x0023, 0x0026, 0x002A, 0x002B, 0x002D, 0x003C, 0x003E, 0x003D]),
   (0xFE68, [0x005C, 0x0024, 0x0025, 0x0040]), (0xFE80, [0x0621, 0x0622, 0x0622, 0x0623, 0x0623,
       0x0624, 0x0624, 0x0625, 0x0625, 0x0626, 0x0626, 0x0626, 0x0626, 0x0627, 0x0627, 0x0628,
       0x0628, 0x0628, 0x0628, 0x0629, 0x0629, 0x062A, 0x062A, 0x062A, 0x062A, 0x062B, 0x062B,
       0x062B, 0x062B, 0x062C, 0x062C, 0x062C, 0x062C, 0x062D, 0x062D, 0x062D, 0x062D, 0x062E,
       0x062E, 0x062E, 0x062E, 0x062F, 0x062F, 0x0630, 0x0630, 0x0631, 0x0631, 0x0632, 0x0632,
       0x0633, 0x0633, 0x0633, 0x0633, 0x0634, 0x0634, 0x0634, 0x0634, 0x0635, 0x0635, 0x0635,
       0x0635, 0x0636, 0x0636, 0x0636]), (0xFEC0, [0x0636, 0x0637, 0x0637, 0x0637, 0x0637, 0x0638,
       0x0638, 0x0638, 0x0638, 0x0639, 0x0639, 0x0639, 0x0639, 0x063A, 0x063A, 0x063A, 0x063A,
       0x0641, 0x0641, 0x0641, 0x0641, 0x0642, 0x0642, 0x0642, 0x0642, 0x0643, 0x0643, 0x0643,
       0x0643, 0x0644, 0x0644, 0x0644, 0x0644, 0x0645, 0x0645, 0x0645, 0x0645, 0x0646, 0x0646,
       0x0646, 0x0646, 0x0647, 0x0647, 0x0647, 0x0647, 0x0648, 0x0648, 0x0649, 0x0649, 0x064A,
       0x064A, 0x064A, 0x064A]), (0xFF5F, [0x2985, 0x2986, 0x002E, 0x300C, 0x300D, 0x3001, 0x30FB,
       0x30F2, 0x30A1, 0x30A3, 0x30A5, 0x30A7, 0x30A9, 0x30E3, 0x30E5, 0x30E7, 0x30C3, 0x30FC,
       0x30A2, 0x30A4, 0x30A6, 0x30A8, 0x30AA, 0x30AB, 0x30AD, 0x30AF, 0x30B1, 0x30B3, 0x30B5,
       0x30B7, 0x30B9, 0x30BB, 0x30BD, 0x30BF, 0x30C1, 0x30C4, 0x30C6, 0x30C8]), (0xFF8B, [0x30D2,
       0x30D5, 0x30D8, 0x30DB]), (0xFF94, [0x30E4, 0x30E6]), (0xFF9C, [0x30EF, 0x30F3, 0x3099,
       0x309A]), (0xFFA1, [0x1100, 0x1101, 0x11AA, 0x1102, 0x11AC, 0x11AD]), (0xFFB0, [0x111A]),
   (0xFFB4, [0x1121]), (0xFFE0, [0x00A2, 0x00A3, 0x00AC]), (0xFFE4, [0x00A6, 0x00A5, 0x20A9]),
   (0xFFE8, [0x2502]), (0xFFED, [0x25A0, 0x25CB])]

/-- Ideographs in a row, given by the first one, and what each of them stands for. -/
def replacedIdeographs : List (Nat × List Nat) :=
  [(0x2E9F, [0x6BCD]), (0x2EF3, [0x9F9F]), (0x2F00, [0x4E00, 0x4E28, 0x4E36, 0x4E3F, 0x4E59, 0x4E85,
       0x4E8C, 0x4EA0, 0x4EBA, 0x513F, 0x5165, 0x516B, 0x5182, 0x5196, 0x51AB, 0x51E0, 0x51F5,
       0x5200, 0x529B, 0x52F9, 0x5315, 0x531A, 0x5338, 0x5341, 0x535C, 0x5369, 0x5382, 0x53B6,
       0x53C8, 0x53E3, 0x56D7, 0x571F, 0x58EB, 0x5902, 0x590A, 0x5915, 0x5927, 0x5973, 0x5B50,
       0x5B80, 0x5BF8, 0x5C0F, 0x5C22, 0x5C38, 0x5C6E, 0x5C71, 0x5DDB, 0x5DE5, 0x5DF1, 0x5DFE,
       0x5E72, 0x5E7A, 0x5E7F, 0x5EF4, 0x5EFE, 0x5F0B, 0x5F13, 0x5F50, 0x5F61, 0x5F73, 0x5FC3,
       0x6208, 0x6236, 0x624B]), (0x2F40, [0x652F, 0x6534, 0x6587, 0x6597, 0x65A4, 0x65B9, 0x65E0,
       0x65E5, 0x66F0, 0x6708, 0x6728, 0x6B20, 0x6B62, 0x6B79, 0x6BB3, 0x6BCB, 0x6BD4, 0x6BDB,
       0x6C0F, 0x6C14, 0x6C34, 0x706B, 0x722A, 0x7236, 0x723B, 0x723F, 0x7247, 0x7259, 0x725B,
       0x72AC, 0x7384, 0x7389, 0x74DC, 0x74E6, 0x7518, 0x751F, 0x7528, 0x7530, 0x758B, 0x7592,
       0x7676, 0x767D, 0x76AE, 0x76BF, 0x76EE, 0x77DB, 0x77E2, 0x77F3, 0x793A, 0x79B8, 0x79BE,
       0x7A74, 0x7ACB, 0x7AF9, 0x7C73, 0x7CF8, 0x7F36, 0x7F51, 0x7F8A, 0x7FBD, 0x8001, 0x800C,
       0x8012, 0x8033]), (0x2F80, [0x807F, 0x8089, 0x81E3, 0x81EA, 0x81F3, 0x81FC, 0x820C, 0x821B,
       0x821F, 0x826E, 0x8272, 0x8278, 0x864D, 0x866B, 0x8840, 0x884C, 0x8863, 0x897E, 0x898B,
       0x89D2, 0x8A00, 0x8C37, 0x8C46, 0x8C55, 0x8C78, 0x8C9D, 0x8D64, 0x8D70, 0x8DB3, 0x8EAB,
       0x8ECA, 0x8F9B, 0x8FB0, 0x8FB5, 0x9091, 0x9149, 0x91C6, 0x91CC, 0x91D1, 0x9577, 0x9580,
       0x961C, 0x96B6, 0x96B9, 0x96E8, 0x9751, 0x975E, 0x9762, 0x9769, 0x97CB, 0x97ED, 0x97F3,
       0x9801, 0x98A8, 0x98DB, 0x98DF, 0x9996, 0x9999, 0x99AC, 0x9AA8, 0x9AD8, 0x9ADF, 0x9B25,
       0x9B2F]), (0x2FC0, [0x9B32, 0x9B3C, 0x9B5A, 0x9CE5, 0x9E75, 0x9E7F, 0x9EA5, 0x9EBB, 0x9EC3,
       0x9ECD, 0x9ED1, 0x9EF9, 0x9EFD, 0x9F0E, 0x9F13, 0x9F20, 0x9F3B, 0x9F4A, 0x9F52, 0x9F8D,
       0x9F9C, 0x9FA0]), (0x3000, [0x0020]), (0x3002, [0x002E]), (0x3036, [0x3012]),
   (0x3038, [0x5341, 0x5344, 0x5345]), (0xF900, [0x8C48, 0x66F4, 0x8ECA, 0x8CC8, 0x6ED1, 0x4E32,
       0x53E5, 0x9F9C, 0x9F9C, 0x5951, 0x91D1, 0x5587, 0x5948, 0x61F6, 0x7669, 0x7F85, 0x863F,
       0x87BA, 0x88F8, 0x908F, 0x6A02, 0x6D1B, 0x70D9, 0x73DE, 0x843D, 0x916A, 0x99F1, 0x4E82,
       0x5375, 0x6B04, 0x721B, 0x862D, 0x9E1E, 0x5D50, 0x6FEB, 0x85CD, 0x8964, 0x62C9, 0x81D8,
       0x881F, 0x5ECA, 0x6717, 0x6D6A, 0x72FC, 0x90CE, 0x4F86, 0x51B7, 0x52DE, 0x64C4, 0x6AD3,
       0x7210, 0x76E7, 0x8001, 0x8606, 0x865C, 0x8DEF, 0x9732, 0x9B6F, 0x9DFA, 0x788C, 0x797F,
       0x7DA0, 0x83C9, 0x9304]), (0xF940, [0x9E7F, 0x8AD6, 0x58DF, 0x5F04, 0x7C60, 0x807E, 0x7262,
       0x78CA, 0x8CC2, 0x96F7, 0x58D8, 0x5C62, 0x6A13, 0x6DDA, 0x6F0F, 0x7D2F, 0x7E37, 0x964B,
       0x52D2, 0x808B, 0x51DC, 0x51CC, 0x7A1C, 0x7DBE, 0x83F1, 0x9675, 0x8B80, 0x62CF, 0x6A02,
       0x8AFE, 0x4E39, 0x5BE7, 0x6012, 0x7387, 0x7570, 0x5317, 0x78FB, 0x4FBF, 0x5FA9, 0x4E0D,
       0x6CCC, 0x6578, 0x7D22, 0x53C3, 0x585E, 0x7701, 0x8449, 0x8AAA, 0x6BBA, 0x8FB0, 0x6C88,
       0x62FE, 0x82E5, 0x63A0, 0x7565, 0x4EAE, 0x5169, 0x51C9, 0x6881, 0x7CE7, 0x826F, 0x8AD2,
       0x91CF, 0x52F5]), (0xF980, [0x5442, 0x5973, 0x5EEC, 0x65C5, 0x6FFE, 0x792A, 0x95AD, 0x9A6A,
       0x9E97, 0x9ECE, 0x529B, 0x66C6, 0x6B77, 0x8F62, 0x5E74, 0x6190, 0x6200, 0x649A, 0x6F23,
       0x7149, 0x7489, 0x79CA, 0x7DF4, 0x806F, 0x8F26, 0x84EE, 0x9023, 0x934A, 0x5217, 0x52A3,
       0x54BD, 0x70C8, 0x88C2, 0x8AAA, 0x5EC9, 0x5FF5, 0x637B, 0x6BAE, 0x7C3E, 0x7375, 0x4EE4,
       0x56F9, 0x5BE7, 0x5DBA, 0x601C, 0x73B2, 0x7469, 0x7F9A, 0x8046, 0x9234, 0x96F6, 0x9748,
       0x9818, 0x4F8B, 0x79AE, 0x91B4, 0x96B8, 0x60E1, 0x4E86, 0x50DA, 0x5BEE, 0x5C3F, 0x6599,
       0x6A02]), (0xF9C0, [0x71CE, 0x7642, 0x84FC, 0x907C, 0x9F8D, 0x6688, 0x962E, 0x5289, 0x677B,
       0x67F3, 0x6D41, 0x6E9C, 0x7409, 0x7559, 0x786B, 0x7D10, 0x985E, 0x516D, 0x622E, 0x9678,
       0x502B, 0x5D19, 0x6DEA, 0x8F2A, 0x5F8B, 0x6144, 0x6817, 0x7387, 0x9686, 0x5229, 0x540F,
       0x5C65, 0x6613, 0x674E, 0x68A8, 0x6CE5, 0x7406, 0x75E2, 0x7F79, 0x88CF, 0x88E1, 0x91CC,
       0x96E2, 0x533F, 0x6EBA, 0x541D, 0x71D0, 0x7498, 0x85FA, 0x96A3, 0x9C57, 0x9E9F, 0x6797,
       0x6DCB, 0x81E8, 0x7ACB, 0x7B20, 0x7C92, 0x72C0, 0x7099, 0x8B58, 0x4EC0, 0x8336, 0x523A]),
   (0xFA00, [0x5207, 0x5EA6, 0x62D3, 0x7CD6, 0x5B85, 0x6D1E, 0x66B4, 0x8F3B, 0x884C, 0x964D, 0x898B,
       0x5ED3, 0x5140, 0x55C0]), (0xFA10, [0x585A]), (0xFA12, [0x6674]), (0xFA15, [0x51DE, 0x732A,
       0x76CA, 0x793C, 0x795E, 0x7965, 0x798F, 0x9756, 0x7CBE, 0x7FBD]), (0xFA20, [0x8612]),
   (0xFA22, [0x8AF8]), (0xFA25, [0x9038, 0x90FD]), (0xFA2A, [0x98EF, 0x98FC, 0x9928, 0x9DB4, 0x90DE,
       0x96B7, 0x4FAE, 0x50E7, 0x514D, 0x52C9, 0x52E4, 0x5351, 0x559D, 0x5606, 0x5668, 0x5840,
       0x58A8, 0x5C64, 0x5C6E, 0x6094, 0x6168, 0x618E, 0x61F2, 0x654F, 0x65E2, 0x6691, 0x6885,
       0x6D77, 0x6E1A, 0x6F22, 0x716E, 0x722B, 0x7422, 0x7891, 0x793E, 0x7949, 0x7948, 0x7950,
       0x7956, 0x795D, 0x798D, 0x798E, 0x7A40, 0x7A81, 0x7BC0, 0x7DF4, 0x7E09, 0x7E41, 0x7F72,
       0x8005, 0x81ED, 0x8279, 0x8279, 0x8457, 0x8910, 0x8996, 0x8B01, 0x8B39, 0x8CD3, 0x8D08,
       0x8FB6, 0x9038, 0x96E3, 0x97FF]), (0xFA6A, [0x983B, 0x6075, 0x242EE, 0x8218]),
   (0xFA70, [0x4E26, 0x51B5, 0x5168, 0x4F80, 0x5145, 0x5180, 0x52C7, 0x52FA, 0x559D, 0x5555, 0x5599,
       0x55E2, 0x585A, 0x58B3, 0x5944, 0x5954, 0x5A62, 0x5B28, 0x5ED2, 0x5ED9, 0x5F69, 0x5FAD,
       0x60D8, 0x614E, 0x6108, 0x618E, 0x6160, 0x61F2, 0x6234, 0x63C4, 0x641C, 0x6452, 0x6556,
       0x6674, 0x6717, 0x671B, 0x6756, 0x6B79, 0x6BBA, 0x6D41, 0x6EDB, 0x6ECB, 0x6F22, 0x701E,
       0x716E, 0x77A7, 0x7235, 0x72AF, 0x732A, 0x7471, 0x7506, 0x753B, 0x761D, 0x761F, 0x76CA,
       0x76DB, 0x76F4, 0x774A, 0x7740, 0x78CC, 0x7AB1, 0x7BC0, 0x7C7B, 0x7D5B]), (0xFAB0, [0x7DF4,
       0x7F3E, 0x8005, 0x8352, 0x83EF, 0x8779, 0x8941, 0x8986, 0x8996, 0x8ABF, 0x8AF8, 0x8ACB,
       0x8B01, 0x8AFE, 0x8AED, 0x8B39, 0x8B8A, 0x8D08, 0x8F38, 0x9072, 0x9199, 0x9276, 0x967C,
       0x96E3, 0x9756, 0x97DB, 0x97FF, 0x980B, 0x983B, 0x9B12, 0x9F9C, 0x2284A, 0x22844, 0x233D5,
       0x3B9D, 0x4018, 0x4039, 0x25249, 0x25CD0, 0x27ED3, 0x9F43, 0x9F8E]), (0x2F800, [0x4E3D,
       0x4E38, 0x4E41, 0x20122, 0x4F60, 0x4FAE, 0x4FBB, 0x5002, 0x507A, 0x5099, 0x50E7, 0x50CF,
       0x349E, 0x2063A, 0x514D, 0x5154, 0x5164, 0x5177, 0x2051C, 0x34B9, 0x5167, 0x518D, 0x2054B,
       0x5197, 0x51A4, 0x4ECC, 0x51AC, 0x51B5, 0x291DF, 0x51F5, 0x5203, 0x34DF, 0x523B, 0x5246,
       0x5272, 0x5277, 0x3515, 0x52C7, 0x52C9, 0x52E4, 0x52FA, 0x5305, 0x5306, 0x5317, 0x5349,
       0x5351, 0x535A, 0x5373, 0x537D, 0x537F, 0x537F, 0x537F, 0x20A2C, 0x7070, 0x53CA, 0x53DF,
       0x20B63, 0x53EB, 0x53F1, 0x5406, 0x549E, 0x5438, 0x5448, 0x5468]), (0x2F840, [0x54A2, 0x54F6,
       0x5510, 0x5553, 0x5563, 0x5584, 0x5584, 0x5599, 0x55AB, 0x55B3, 0x55C2, 0x5716, 0x5606,
       0x5717, 0x5651, 0x5674, 0x5207, 0x58EE, 0x57CE, 0x57F4, 0x580D, 0x578B, 0x5832, 0x5831,
       0x58AC, 0x214E4, 0x58F2, 0x58F7, 0x5906, 0x591A, 0x5922, 0x5962, 0x216A8, 0x216EA, 0x59EC,
       0x5A1B, 0x5A27, 0x59D8, 0x5A66, 0x36EE, 0x36FC, 0x5B08, 0x5B3E, 0x5B3E, 0x219C8, 0x5BC3,
       0x5BD8, 0x5BE7, 0x5BF3, 0x21B18, 0x5BFF, 0x5C06, 0x5F53, 0x5C22, 0x3781, 0x5C60, 0x5C6E,
       0x5CC0, 0x5C8D, 0x21DE4, 0x5D43, 0x21DE6, 0x5D6E, 0x5D6B]), (0x2F880, [0x5D7C, 0x5DE1,
       0x5DE2, 0x382F, 0x5DFD, 0x5E28, 0x5E3D, 0x5E69, 0x3862, 0x22183, 0x387C, 0x5EB0, 0x5EB3,
       0x5EB6, 0x5ECA, 0x2A392, 0x5EFE, 0x22331, 0x22331, 0x8201, 0x5F22, 0x5F22, 0x38C7, 0x232B8,
       0x261DA, 0x5F62, 0x5F6B, 0x38E3, 0x5F9A, 0x5FCD, 0x5FD7, 0x5FF9, 0x6081, 0x393A, 0x391C,
       0x6094, 0x226D4, 0x60C7, 0x6148, 0x614C, 0x614E, 0x614C, 0x617A, 0x618E, 0x61B2, 0x61A4,
       0x61AF, 0x61DE, 0x61F2, 0x61F6, 0x6210, 0x621B, 0x625D, 0x62B1, 0x62D4, 0x6350, 0x22B0C,
       0x633D, 0x62FC, 0x6368, 0x6383, 0x63E4, 0x22BF1, 0x6422]), (0x2F8C0, [0x63C5, 0x63A9, 0x3A2E,
       0x6469, 0x647E, 0x649D, 0x6477, 0x3A6C, 0x654F, 0x656C, 0x2300A, 0x65E3, 0x66F8, 0x6649,
       0x3B19, 0x6691, 0x3B08, 0x3AE4, 0x5192, 0x5195, 0x6700, 0x669C, 0x80AD, 0x43D9, 0x6717,
       0x671B, 0x6721, 0x675E, 0x6753, 0x233C3, 0x3B49, 0x67FA, 0x6785, 0x6852, 0x6885, 0x2346D,
       0x688E, 0x681F, 0x6914, 0x3B9D, 0x6942, 0x69A3, 0x69EA, 0x6AA8, 0x236A3, 0x6ADB, 0x3C18,
       0x6B21, 0x238A7, 0x6B54, 0x3C4E, 0x6B72, 0x6B9F, 0x6BBA, 0x6BBB, 0x23A8D, 0x21D0B, 0x23AFA,
       0x6C4E, 0x23CBC, 0x6CBF, 0x6CCD, 0x6C67, 0x6D16]), (0x2F900, [0x6D3E, 0x6D77, 0x6D41, 0x6D69,
       0x6D78, 0x6D85, 0x23D1E, 0x6D34, 0x6E2F, 0x6E6E, 0x3D33, 0x6ECB, 0x6EC7, 0x23ED1, 0x6DF9,
       0x6F6E, 0x23F5E, 0x23F8E, 0x6FC6, 0x7039, 0x701E, 0x701B, 0x3D96, 0x704A, 0x707D, 0x7077,
       0x70AD, 0x20525, 0x7145, 0x24263, 0x719C, 0x243AB, 0x7228, 0x7235, 0x7250, 0x24608, 0x7280,
       0x7295, 0x24735, 0x24814, 0x737A, 0x738B, 0x3EAC, 0x73A5, 0x3EB8, 0x3EB8, 0x7447, 0x745C,
       0x7471, 0x7485, 0x74CA, 0x3F1B, 0x7524, 0x24C36, 0x753E, 0x24C92, 0x7570, 0x2219F, 0x7610,
       0x24FA1, 0x24FB8, 0x25044, 0x3FFC, 0x4008]), (0x2F940, [0x76F4, 0x250F3, 0x250F2, 0x25119,
       0x25133, 0x771E, 0x771F, 0x771F, 0x774A, 0x4039, 0x778B, 0x4046, 0x4096, 0x2541D, 0x784E,
       0x788C, 0x78CC, 0x40E3, 0x25626, 0x7956, 0x2569A, 0x256C5, 0x798F, 0x79EB, 0x412F, 0x7A40,
       0x7A4A, 0x7A4F, 0x2597C, 0x25AA7, 0x25AA7, 0x7AEE, 0x4202, 0x25BAB, 0x7BC6, 0x7BC9, 0x4227,
       0x25C80, 0x7CD2, 0x42A0, 0x7CE8, 0x7CE3, 0x7D00, 0x25F86, 0x7D63, 0x4301, 0x7DC7, 0x7E02,
       0x7E45, 0x4334, 0x26228, 0x26247, 0x4359, 0x262D9, 0x7F7A, 0x2633E, 0x7F95, 0x7FFA, 0x8005,
       0x264DA, 0x26523, 0x8060, 0x265A8, 0x8070]), (0x2F980, [0x2335F, 0x43D5, 0x80B2, 0x8103,
       0x440B, 0x813E, 0x5AB5, 0x267A7, 0x267B5, 0x23393, 0x2339C, 0x8201, 0x8204, 0x8F9E, 0x446B,
       0x8291, 0x828B, 0x829D, 0x52B3, 0x82B1, 0x82B3, 0x82BD, 0x82E6, 0x26B3C, 0x82E5, 0x831D,
       0x8363, 0x83AD, 0x8323, 0x83BD, 0x83E7, 0x8457, 0x8353, 0x83CA, 0x83CC, 0x83DC, 0x26C36,
       0x26D6B, 0x26CD5, 0x452B, 0x84F1, 0x84F3, 0x8516, 0x273CA, 0x8564, 0x26F2C, 0x455D, 0x4561,
       0x26FB1, 0x270D2, 0x456B, 0x8650, 0x865C, 0x8667, 0x8669, 0x86A9, 0x8688, 0x870E, 0x86E2,
       0x8779, 0x8728, 0x876B, 0x8786, 0x45D7]), (0x2F9C0, [0x87E1, 0x8801, 0x45F9, 0x8860, 0x8863,
       0x27667, 0x88D7, 0x88DE, 0x4635, 0x88FA, 0x34BB, 0x278AE, 0x27966, 0x46BE, 0x46C7, 0x8AA0,
       0x8AED, 0x8B8A, 0x8C55, 0x27CA8, 0x8CAB, 0x8CC1, 0x8D1B, 0x8D77, 0x27F2F, 0x20804, 0x8DCB,
       0x8DBC, 0x8DF0, 0x208DE, 0x8ED4, 0x8F38, 0x285D2, 0x285ED, 0x9094, 0x90F1, 0x9111, 0x2872E,
       0x911B, 0x9238, 0x92D7, 0x92D8, 0x927C, 0x93F9, 0x9415, 0x28BFA, 0x958B, 0x4995, 0x95B7,
       0x28D77, 0x49E6, 0x96C3, 0x5DB2, 0x9723, 0x29145, 0x2921A, 0x4A6E, 0x4A76, 0x97E0, 0x2940A,
       0x4AB2, 0x29496, 0x980B, 0x980B]), (0x2FA00, [0x9829, 0x295B6, 0x98E2, 0x4B33, 0x9929,
       0x99A7, 0x99C2, 0x99FE, 0x4BCE, 0x29B30, 0x9B12, 0x9C40, 0x9CFD, 0x4CCE, 0x4CED, 0x9D67,
       0x2A0CE, 0x4CF8, 0x2A105, 0x2A20E, 0x2A291, 0x9EBB, 0x4D56, 0x9EF9, 0x9EFE, 0x9F05, 0x9F0F,
       0x9F16, 0x9F3B, 0x2A600])]

/-- Letters in the fonts of formulas and other shapes, and what each of them stands for. -/
def replacedShapes : List (Nat × List Nat) :=
  [(0x10594, [0x105BB, 0x105BC]), (0x10781, [0x02D0, 0x02D1, 0x00E6, 0x0299, 0x0253]),
   (0x10787, [0x02A3, 0xAB66, 0x02A5, 0x02A4, 0x0256, 0x0257, 0x1D91, 0x0258, 0x025E, 0x02A9,
       0x0264, 0x0262, 0x0260, 0x029B, 0x0127, 0x029C, 0x0267, 0x0284, 0x02AA, 0x02AB, 0x026C,
       0x1DF04, 0xA78E, 0x026E, 0x1DF05, 0x028E, 0x1DF06, 0x00F8, 0x0276, 0x0277, 0x0071, 0x027A,
       0x1DF08, 0x027D, 0x027E, 0x0280, 0x02A8, 0x02A6, 0xAB67, 0x02A7, 0x0288, 0x2C71]),
   (0x107B2, [0x028F, 0x02A1, 0x02A2, 0x0298]), (0x107B9, [0x1DF0A, 0x1DF1E]), (0x1D49C, [0x0061]),
   (0x1D49E, [0x0063, 0x0064]), (0x1D4A2, [0x0067]), (0x1D4A5, [0x006A, 0x006B]),
   (0x1D4BB, [0x0066]), (0x1D504, [0x0061, 0x0062]), (0x1D538, [0x0061, 0x0062]),
   (0x1D546, [0x006F]), (0x1D6A4, [0x0131, 0x0237]), (0x1D6B9, [0x03B8]), (0x1D6C1, [0x2207]),
   (0x1D6D3, [0x03C3]), (0x1D6DB, [0x2202, 0x03B5, 0x03B8, 0x03BA, 0x03C6, 0x03C1, 0x03C0]),
   (0x1D6F3, [0x03B8]), (0x1D6FB, [0x2207]), (0x1D70D, [0x03C3]), (0x1D715, [0x2202, 0x03B5, 0x03B8,
       0x03BA, 0x03C6, 0x03C1, 0x03C0]), (0x1D72D, [0x03B8]), (0x1D735, [0x2207]),
   (0x1D747, [0x03C3]), (0x1D74F, [0x2202, 0x03B5, 0x03B8, 0x03BA, 0x03C6, 0x03C1, 0x03C0]),
   (0x1D767, [0x03B8]), (0x1D76F, [0x2207]), (0x1D781, [0x03C3]), (0x1D789, [0x2202, 0x03B5, 0x03B8,
       0x03BA, 0x03C6, 0x03C1, 0x03C0]), (0x1D7A1, [0x03B8]), (0x1D7A9, [0x2207]),
   (0x1D7BB, [0x03C3]), (0x1D7C3, [0x2202, 0x03B5, 0x03B8, 0x03BA, 0x03C6, 0x03C1, 0x03C0, 0x03DD,
       0x03DD]), (0x1E047, [0x044B, 0x044D, 0x044E, 0xA689, 0x04D9, 0x0456, 0x0458, 0x04E9, 0x04AF,
       0x04CF]), (0x1E05A, [0x043A, 0x043B, 0x043E, 0x043F, 0x0441]), (0x1E065, [0x044A, 0x044B,
       0x0491, 0x0456, 0x0455, 0x045F, 0x04AB, 0xA651, 0x04B1]), (0x1EE00, [0x0627, 0x0628, 0x062C,
       0x062F]), (0x1EE05, [0x0648, 0x0632, 0x062D, 0x0637, 0x064A]), (0x1EE0E, [0x0633, 0x0639,
       0x0641, 0x0635, 0x0642, 0x0631, 0x0634, 0x062A, 0x062B, 0x062E, 0x0630, 0x0636, 0x0638,
       0x063A, 0x066E, 0x06BA, 0x06A1, 0x066F]), (0x1EE21, [0x0628, 0x062C]), (0x1EE24, [0x0647]),
   (0x1EE27, [0x062D]), (0x1EE29, [0x064A]), (0x1EE2E, [0x0633, 0x0639, 0x0641, 0x0635, 0x0642]),
   (0x1EE34, [0x0634, 0x062A, 0x062B, 0x062E]), (0x1EE39, [0x0636]), (0x1EE3B, [0x063A]),
   (0x1EE42, [0x062C]), (0x1EE47, [0x062D]), (0x1EE49, [0x064A]), (0x1EE4B, [0x0644]),
   (0x1EE4D, [0x0646, 0x0633, 0x0639]), (0x1EE51, [0x0635, 0x0642]), (0x1EE54, [0x0634]),
   (0x1EE57, [0x062E]), (0x1EE59, [0x0636]), (0x1EE5B, [0x063A]), (0x1EE5D, [0x06BA]),
   (0x1EE5F, [0x066F]), (0x1EE61, [0x0628, 0x062C]), (0x1EE64, [0x0647]), (0x1EE67, [0x062D, 0x0637,
       0x064A, 0x0643]), (0x1EE6C, [0x0645, 0x0646, 0x0633, 0x0639, 0x0641, 0x0635, 0x0642]),
   (0x1EE74, [0x0634, 0x062A, 0x062B, 0x062E]), (0x1EE79, [0x0636, 0x0638, 0x063A, 0x066E]),
   (0x1EE7E, [0x06A1]), (0x1EE80, [0x0627, 0x0628, 0x062C, 0x062F, 0x0647, 0x0648, 0x0632, 0x062D,
       0x0637, 0x064A]), (0x1EE8E, [0x0633, 0x0639, 0x0641, 0x0635, 0x0642, 0x0631, 0x0634, 0x062A,
       0x062B, 0x062E, 0x0630, 0x0636, 0x0638, 0x063A]), (0x1EEA1, [0x0628, 0x062C, 0x062F]),
   (0x1EEA5, [0x0648, 0x0632, 0x062D, 0x0637, 0x064A]), (0x1EEAE, [0x0633, 0x0639, 0x0641, 0x0635,
       0x0642, 0x0631, 0x0634, 0x062A, 0x062B, 0x062E, 0x0630, 0x0636, 0x0638, 0x063A]),
   (0x1F12B, [0x0063, 0x0072]), (0x1F202, [0x30B5]), (0x1F210, [0x624B, 0x5B57, 0x53CC, 0x30C7,
       0x4E8C, 0x591A, 0x89E3, 0x5929, 0x4EA4, 0x6620, 0x7121, 0x6599, 0x524D, 0x5F8C, 0x518D,
       0x65B0, 0x521D, 0x7D42, 0x751F, 0x8CA9, 0x58F0, 0x5439, 0x6F14, 0x6295, 0x6355, 0x4E00,
       0x4E09, 0x904A, 0x5DE6, 0x4E2D, 0x53F3, 0x6307, 0x8D70, 0x6253, 0x7981, 0x7A7A, 0x5408,
       0x6E80, 0x6709, 0x6708, 0x7533, 0x5272, 0x55B6, 0x914D]), (0x1F250, [0x5F97, 0x53EF])]

/-- Characters in a row, given by the first one, and the texts that each of them stands for. -/
def spelled : List (Nat × List (List Nat)) :=
  [(0x00A8, [[0x0020, 0x0308]]), (0x00AF, [[0x0020, 0x0304]]), (0x00B4, [[0x0020, 0x0301]]),
   (0x00B8, [[0x0020, 0x0327]]), (0x00BC, [[0x0031, 0x2044, 0x0034], [0x0031, 0x2044, 0x0032],
       [0x0033, 0x2044, 0x0034]]), (0x0130, [[0x0069, 0x0307]]), (0x0132, [[0x0069, 0x006A],
       [0x0069, 0x006A]]), (0x013F, [[0x006C, 0x00B7], [0x006C, 0x00B7]]),
   (0x0149, [[0x02BC, 0x006E]]), (0x01C4, [[0x0064, 0x017E], [0x0064, 0x017E], [0x0064, 0x017E],
       [0x006C, 0x006A], [0x006C, 0x006A], [0x006C, 0x006A], [0x006E, 0x006A], [0x006E, 0x006A],
       [0x006E, 0x006A]]), (0x01F1, [[0x0064, 0x007A], [0x0064, 0x007A], [0x0064, 0x007A]]),
   (0x02D8, [[0x0020, 0x0306], [0x0020, 0x0307], [0x0020, 0x030A], [0x0020, 0x0328],
       [0x0020, 0x0303], [0x0020, 0x030B]]), (0x0344, [[0x0308, 0x0301]]),
   (0x037A, [[0x0020, 0x03B9]]), (0x0384, [[0x0020, 0x0301], [0x0020, 0x0308, 0x0301]]),
   (0x0587, [[0x0565, 0x0582]]), (0x0675, [[0x0627, 0x0674], [0x0648, 0x0674], [0x06C7, 0x0674],
       [0x064A, 0x0674]]), (0x0958, [[0x0915, 0x093C], [0x0916, 0x093C], [0x0917, 0x093C],
       [0x091C, 0x093C], [0x0921, 0x093C], [0x0922, 0x093C], [0x092B, 0x093C], [0x092F, 0x093C]]),
   (0x09DC, [[0x09A1, 0x09BC], [0x09A2, 0x09BC]]), (0x09DF, [[0x09AF, 0x09BC]]),
   (0x0A33, [[0x0A32, 0x0A3C]]), (0x0A36, [[0x0A38, 0x0A3C]]), (0x0A59, [[0x0A16, 0x0A3C],
       [0x0A17, 0x0A3C], [0x0A1C, 0x0A3C]]), (0x0A5E, [[0x0A2B, 0x0A3C]]),
   (0x0B5C, [[0x0B21, 0x0B3C], [0x0B22, 0x0B3C]]), (0x0E33, [[0x0E4D, 0x0E32]]),
   (0x0EB3, [[0x0ECD, 0x0EB2]]), (0x0EDC, [[0x0EAB, 0x0E99], [0x0EAB, 0x0EA1]]),
   (0x0F43, [[0x0F42, 0x0FB7]]), (0x0F4D, [[0x0F4C, 0x0FB7]]), (0x0F52, [[0x0F51, 0x0FB7]]),
   (0x0F57, [[0x0F56, 0x0FB7]]), (0x0F5C, [[0x0F5B, 0x0FB7]]), (0x0F69, [[0x0F40, 0x0FB5]]),
   (0x0F73, [[0x0F71, 0x0F72]]), (0x0F75, [[0x0F71, 0x0F74], [0x0FB2, 0x0F80],
       [0x0FB2, 0x0F71, 0x0F80], [0x0FB3, 0x0F80], [0x0FB3, 0x0F71, 0x0F80]]),
   (0x0F81, [[0x0F71, 0x0F80]]), (0x0F93, [[0x0F92, 0x0FB7]]), (0x0F9D, [[0x0F9C, 0x0FB7]]),
   (0x0FA2, [[0x0FA1, 0x0FB7]]), (0x0FA7, [[0x0FA6, 0x0FB7]]), (0x0FAC, [[0x0FAB, 0x0FB7]]),
   (0x0FB9, [[0x0F90, 0x0FB5]]), (0x1E9A, [[0x0061, 0x02BE]]), (0x1F80, [[0x1F00, 0x03B9],
       [0x1F01, 0x03B9], [0x1F02, 0x03B9], [0x1F03, 0x03B9], [0x1F04, 0x03B9], [0x1F05, 0x03B9],
       [0x1F06, 0x03B9], [0x1F07, 0x03B9], [0x1F00, 0x03B9], [0x1F01, 0x03B9], [0x1F02, 0x03B9],
       [0x1F03, 0x03B9], [0x1F04, 0x03B9], [0x1F05, 0x03B9], [0x1F06, 0x03B9], [0x1F07, 0x03B9],
       [0x1F20, 0x03B9], [0x1F21, 0x03B9], [0x1F22, 0x03B9], [0x1F23, 0x03B9], [0x1F24, 0x03B9],
       [0x1F25, 0x03B9], [0x1F26, 0x03B9], [0x1F27, 0x03B9], [0x1F20, 0x03B9], [0x1F21, 0x03B9],
       [0x1F22, 0x03B9], [0x1F23, 0x03B9], [0x1F24, 0x03B9], [0x1F25, 0x03B9], [0x1F26, 0x03B9],
       [0x1F27, 0x03B9]]), (0x1FA0, [[0x1F60, 0x03B9], [0x1F61, 0x03B9], [0x1F62, 0x03B9],
       [0x1F63, 0x03B9], [0x1F64, 0x03B9], [0x1F65, 0x03B9], [0x1F66, 0x03B9], [0x1F67, 0x03B9],
       [0x1F60, 0x03B9], [0x1F61, 0x03B9], [0x1F62, 0x03B9], [0x1F63, 0x03B9], [0x1F64, 0x03B9],
       [0x1F65, 0x03B9], [0x1F66, 0x03B9], [0x1F67, 0x03B9]]), (0x1FB2, [[0x1F70, 0x03B9],
       [0x03B1, 0x03B9], [0x03AC, 0x03B9]]), (0x1FB7, [[0x1FB6, 0x03B9]]),
   (0x1FBC, [[0x03B1, 0x03B9], [0x0020, 0x0313]]), (0x1FBF, [[0x0020, 0x0313], [0x0020, 0x0342],
       [0x0020, 0x0308, 0x0342], [0x1F74, 0x03B9], [0x03B7, 0x03B9], [0x03AE, 0x03B9]]),
   (0x1FC7, [[0x1FC6, 0x03B9]]), (0x1FCC, [[0x03B7, 0x03B9], [0x0020, 0x0313, 0x0300],
       [0x0020, 0x0313, 0x0301], [0x0020, 0x0313, 0x0342]]), (0x1FDD, [[0x0020, 0x0314, 0x0300],
       [0x0020, 0x0314, 0x0301], [0x0020, 0x0314, 0x0342]]), (0x1FED, [[0x0020, 0x0308, 0x0300],
       [0x0020, 0x0308, 0x0301]]), (0x1FF2, [[0x1F7C, 0x03B9], [0x03C9, 0x03B9], [0x03CE, 0x03B9]]),
   (0x1FF7, [[0x1FF6, 0x03B9]]), (0x1FFC, [[0x03C9, 0x03B9], [0x0020, 0x0301], [0x0020, 0x0314]]),
   (0x2017, [[0x0020, 0x0333]]), (0x2033, [[0x2032, 0x2032], [0x2032, 0x2032, 0x2032]]),
   (0x2036, [[0x2035, 0x2035], [0x2035, 0x2035, 0x2035]]), (0x203C, [[0x0021, 0x0021]]),
   (0x203E, [[0x0020, 0x0305]]), (0x2047, [[0x003F, 0x003F], [0x003F, 0x0021], [0x0021, 0x003F]]),
   (0x2057, [[0x2032, 0x2032, 0x2032, 0x2032]]), (0x20A8, [[0x0072, 0x0073]]),
   (0x2100, [[0x0061, 0x002F, 0x0063], [0x0061, 0x002F, 0x0073]]), (0x2103, [[0x00B0, 0x0063]]),
   (0x2105, [[0x0063, 0x002F, 0x006F], [0x0063, 0x002F, 0x0075]]), (0x2109, [[0x00B0, 0x0066]]),
   (0x2116, [[0x006E, 0x006F]]), (0x2120, [[0x0073, 0x006D], [0x0074, 0x0065, 0x006C],
       [0x0074, 0x006D]]), (0x213B, [[0x0066, 0x0061, 0x0078]]), (0x2150, [[0x0031, 0x2044, 0x0037],
       [0x0031, 0x2044, 0x0039], [0x0031, 0x2044, 0x0031, 0x0030], [0x0031, 0x2044, 0x0033],
       [0x0032, 0x2044, 0x0033], [0x0031, 0x2044, 0x0035], [0x0032, 0x2044, 0x0035],
       [0x0033, 0x2044, 0x0035], [0x0034, 0x2044, 0x0035], [0x0031, 0x2044, 0x0036],
       [0x0035, 0x2044, 0x0036], [0x0031, 0x2044, 0x0038], [0x0033, 0x2044, 0x0038],
       [0x0035, 0x2044, 0x0038], [0x0037, 0x2044, 0x0038], [0x0031, 0x2044]]),
   (0x2161, [[0x0069, 0x0069], [0x0069, 0x0069, 0x0069], [0x0069, 0x0076]]),
   (0x2165, [[0x0076, 0x0069], [0x0076, 0x0069, 0x0069], [0x0076, 0x0069, 0x0069, 0x0069],
       [0x0069, 0x0078]]), (0x216A, [[0x0078, 0x0069], [0x0078, 0x0069, 0x0069]]),
   (0x2171, [[0x0069, 0x0069], [0x0069, 0x0069, 0x0069], [0x0069, 0x0076]]),
   (0x2175, [[0x0076, 0x0069], [0x0076, 0x0069, 0x0069], [0x0076, 0x0069, 0x0069, 0x0069],
       [0x0069, 0x0078]]), (0x217A, [[0x0078, 0x0069], [0x0078, 0x0069, 0x0069]]),
   (0x2189, [[0x0030, 0x2044, 0x0033]]), (0x222C, [[0x222B, 0x222B], [0x222B, 0x222B, 0x222B]]),
   (0x222F, [[0x222E, 0x222E], [0x222E, 0x222E, 0x222E]]), (0x2469, [[0x0031, 0x0030],
       [0x0031, 0x0031], [0x0031, 0x0032], [0x0031, 0x0033], [0x0031, 0x0034], [0x0031, 0x0035],
       [0x0031, 0x0036], [0x0031, 0x0037], [0x0031, 0x0038], [0x0031, 0x0039], [0x0032, 0x0030],
       [0x0028, 0x0031, 0x0029], [0x0028, 0x0032, 0x0029], [0x0028, 0x0033, 0x0029],
       [0x0028, 0x0034, 0x0029], [0x0028, 0x0035, 0x0029], [0x0028, 0x0036, 0x0029],
       [0x0028, 0x0037, 0x0029], [0x0028, 0x0038, 0x0029], [0x0028, 0x0039, 0x0029],
       [0x0028, 0x0031, 0x0030, 0x0029], [0x0028, 0x0031, 0x0031, 0x0029],
       [0x0028, 0x0031, 0x0032, 0x0029], [0x0028, 0x0031, 0x0033, 0x0029],
       [0x0028, 0x0031, 0x0034, 0x0029], [0x0028, 0x0031, 0x0035, 0x0029],
       [0x0028, 0x0031, 0x0036, 0x0029], [0x0028, 0x0031, 0x0037, 0x0029],
       [0x0028, 0x0031, 0x0038, 0x0029], [0x0028, 0x0031, 0x0039, 0x0029],
       [0x0028, 0x0032, 0x0030, 0x0029]]), (0x249C, [[0x0028, 0x0061, 0x0029],
       [0x0028, 0x0062, 0x0029], [0x0028, 0x0063, 0x0029], [0x0028, 0x0064, 0x0029],
       [0x0028, 0x0065, 0x0029], [0x0028, 0x0066, 0x0029], [0x0028, 0x0067, 0x0029],
       [0x0028, 0x0068, 0x0029], [0x0028, 0x0069, 0x0029], [0x0028, 0x006A, 0x0029],
       [0x0028, 0x006B, 0x0029], [0x0028, 0x006C, 0x0029], [0x0028, 0x006D, 0x0029],
       [0x0028, 0x006E, 0x0029], [0x0028, 0x006F, 0x0029], [0x0028, 0x0070, 0x0029],
       [0x0028, 0x0071, 0x0029], [0x0028, 0x0072, 0x0029], [0x0028, 0x0073, 0x0029],
       [0x0028, 0x0074, 0x0029], [0x0028, 0x0075, 0x0029], [0x0028, 0x0076, 0x0029],
       [0x0028, 0x0077, 0x0029], [0x0028, 0x0078, 0x0029], [0x0028, 0x0079, 0x0029],
       [0x0028, 0x007A, 0x0029]]), (0x2A0C, [[0x222B, 0x222B, 0x222B, 0x222B]]),
   (0x2A74, [[0x003A, 0x003A, 0x003D], [0x003D, 0x003D], [0x003D, 0x003D, 0x003D]]),
   (0x2ADC, [[0x2ADD, 0x0338]]), (0x309B, [[0x0020, 0x3099], [0x0020, 0x309A]]),
   (0x309F, [[0x3088, 0x308A]]), (0x30FF, [[0x30B3, 0x30C8]]), (0x3200, [[0x0028, 0x1100, 0x0029],
       [0x0028, 0x1102, 0x0029], [0x0028, 0x1103, 0x0029], [0x0028, 0x1105, 0x0029],
       [0x0028, 0x1106, 0x0029], [0x0028, 0x1107, 0x0029], [0x0028, 0x1109, 0x0029],
       [0x0028, 0x110B, 0x0029], [0x0028, 0x110C, 0x0029], [0x0028, 0x110E, 0x0029],
       [0x0028, 0x110F, 0x0029], [0x0028, 0x1110, 0x0029], [0x0028, 0x1111, 0x0029],
       [0x0028, 0x1112, 0x0029], [0x0028, 0xAC00, 0x0029], [0x0028, 0xB098, 0x0029],
       [0x0028, 0xB2E4, 0x0029], [0x0028, 0xB77C, 0x0029], [0x0028, 0xB9C8, 0x0029],
       [0x0028, 0xBC14, 0x0029], [0x0028, 0xC0AC, 0x0029], [0x0028, 0xC544, 0x0029],
       [0x0028, 0xC790, 0x0029], [0x0028, 0xCC28, 0x0029], [0x0028, 0xCE74, 0x0029],
       [0x0028, 0xD0C0, 0x0029], [0x0028, 0xD30C, 0x0029], [0x0028, 0xD558, 0x0029],
       [0x0028, 0xC8FC, 0x0029], [0x0028, 0xC624, 0xC804, 0x0029],
       [0x0028, 0xC624, 0xD6C4, 0x0029]]), (0x3220, [[0x0028, 0x4E00, 0x0029],
       [0x0028, 0x4E8C, 0x0029], [0x0028, 0x4E09, 0x0029], [0x0028, 0x56DB, 0x0029],
       [0x0028, 0x4E94, 0x0029], [0x0028, 0x516D, 0x0029], [0x0028, 0x4E03, 0x0029],
       [0x0028, 0x516B, 0x0029], [0x0028, 0x4E5D, 0x0029], [0x0028, 0x5341, 0x0029],
       [0x0028, 0x6708, 0x0029], [0x0028, 0x706B, 0x0029], [0x0028, 0x6C34, 0x0029],
       [0x0028, 0x6728, 0x0029], [0x0028, 0x91D1, 0x0029], [0x0028, 0x571F, 0x0029],
       [0x0028, 0x65E5, 0x0029], [0x0028, 0x682A, 0x0029], [0x0028, 0x6709, 0x0029],
       [0x0028, 0x793E, 0x0029], [0x0028, 0x540D, 0x0029], [0x0028, 0x7279, 0x0029],
       [0x0028, 0x8CA1, 0x0029], [0x0028, 0x795D, 0x0029], [0x0028, 0x52B4, 0x0029],
       [0x0028, 0x4EE3, 0x0029], [0x0028, 0x547C, 0x0029], [0x0028, 0x5B66, 0x0029],
       [0x0028, 0x76E3, 0x0029], [0x0028, 0x4F01, 0x0029], [0x0028, 0x8CC7, 0x0029],
       [0x0028, 0x5354, 0x0029]]), (0x3240, [[0x0028, 0x796D, 0x0029], [0x0028, 0x4F11, 0x0029],
       [0x0028, 0x81EA, 0x0029], [0x0028, 0x81F3, 0x0029]]), (0x3250, [[0x0070, 0x0074, 0x0065],
       [0x0032, 0x0031], [0x0032, 0x0032], [0x0032, 0x0033], [0x0032, 0x0034], [0x0032, 0x0035],
       [0x0032, 0x0036], [0x0032, 0x0037], [0x0032, 0x0038], [0x0032, 0x0039], [0x0033, 0x0030],
       [0x0033, 0x0031], [0x0033, 0x0032], [0x0033, 0x0033], [0x0033, 0x0034], [0x0033, 0x0035]]),
   (0x327C, [[0xCC38, 0xACE0], [0xC8FC, 0xC758]]), (0x32B1, [[0x0033, 0x0036], [0x0033, 0x0037],
       [0x0033, 0x0038], [0x0033, 0x0039], [0x0034, 0x0030], [0x0034, 0x0031], [0x0034, 0x0032],
       [0x0034, 0x0033], [0x0034, 0x0034], [0x0034, 0x0035], [0x0034, 0x0036], [0x0034, 0x0037],
       [0x0034, 0x0038], [0x0034, 0x0039], [0x0035, 0x0030], [0x0031, 0x6708], [0x0032, 0x6708],
       [0x0033, 0x6708], [0x0034, 0x6708], [0x0035, 0x6708], [0x0036, 0x6708], [0x0037, 0x6708],
       [0x0038, 0x6708], [0x0039, 0x6708], [0x0031, 0x0030, 0x6708], [0x0031, 0x0031, 0x6708],
       [0x0031, 0x0032, 0x6708], [0x0068, 0x0067], [0x0065, 0x0072, 0x0067], [0x0065, 0x0076],
       [0x006C, 0x0074, 0x0064]]), (0x32FF, [[0x4EE4, 0x548C], [0x30A2, 0x30D1, 0x30FC, 0x30C8],
       [0x30A2, 0x30EB, 0x30D5, 0x30A1], [0x30A2, 0x30F3, 0x30DA, 0x30A2], [0x30A2, 0x30FC, 0x30EB],
       [0x30A4, 0x30CB, 0x30F3, 0x30B0], [0x30A4, 0x30F3, 0x30C1], [0x30A6, 0x30A9, 0x30F3],
       [0x30A8, 0x30B9, 0x30AF, 0x30FC, 0x30C9], [0x30A8, 0x30FC, 0x30AB, 0x30FC],
       [0x30AA, 0x30F3, 0x30B9], [0x30AA, 0x30FC, 0x30E0], [0x30AB, 0x30A4, 0x30EA],
       [0x30AB, 0x30E9, 0x30C3, 0x30C8], [0x30AB, 0x30ED, 0x30EA, 0x30FC], [0x30AC, 0x30ED, 0x30F3],
       [0x30AC, 0x30F3, 0x30DE], [0x30AE, 0x30AC], [0x30AE, 0x30CB, 0x30FC],
       [0x30AD, 0x30E5, 0x30EA, 0x30FC], [0x30AE, 0x30EB, 0x30C0, 0x30FC], [0x30AD, 0x30ED],
       [0x30AD, 0x30ED, 0x30B0, 0x30E9, 0x30E0], [0x30AD, 0x30ED, 0x30E1, 0x30FC, 0x30C8, 0x30EB],
       [0x30AD, 0x30ED, 0x30EF, 0x30C3, 0x30C8], [0x30B0, 0x30E9, 0x30E0],
       [0x30B0, 0x30E9, 0x30E0, 0x30C8, 0x30F3], [0x30AF, 0x30EB, 0x30BC, 0x30A4, 0x30ED],
       [0x30AF, 0x30ED, 0x30FC, 0x30CD], [0x30B1, 0x30FC, 0x30B9], [0x30B3, 0x30EB, 0x30CA],
       [0x30B3, 0x30FC, 0x30DD]]), (0x331F, [[0x30B5, 0x30A4, 0x30AF, 0x30EB],
       [0x30B5, 0x30F3, 0x30C1, 0x30FC, 0x30E0], [0x30B7, 0x30EA, 0x30F3, 0x30B0],
       [0x30BB, 0x30F3, 0x30C1], [0x30BB, 0x30F3, 0x30C8], [0x30C0, 0x30FC, 0x30B9],
       [0x30C7, 0x30B7], [0x30C9, 0x30EB], [0x30C8, 0x30F3], [0x30CA, 0x30CE],
       [0x30CE, 0x30C3, 0x30C8], [0x30CF, 0x30A4, 0x30C4], [0x30D1, 0x30FC, 0x30BB, 0x30F3, 0x30C8],
       [0x30D1, 0x30FC, 0x30C4], [0x30D0, 0x30FC, 0x30EC, 0x30EB],
       [0x30D4, 0x30A2, 0x30B9, 0x30C8, 0x30EB], [0x30D4, 0x30AF, 0x30EB], [0x30D4, 0x30B3],
       [0x30D3, 0x30EB], [0x30D5, 0x30A1, 0x30E9, 0x30C3, 0x30C9], [0x30D5, 0x30A3, 0x30FC, 0x30C8],
       [0x30D6, 0x30C3, 0x30B7, 0x30A7, 0x30EB], [0x30D5, 0x30E9, 0x30F3],
       [0x30D8, 0x30AF, 0x30BF, 0x30FC, 0x30EB], [0x30DA, 0x30BD], [0x30DA, 0x30CB, 0x30D2],
       [0x30D8, 0x30EB, 0x30C4], [0x30DA, 0x30F3, 0x30B9], [0x30DA, 0x30FC, 0x30B8],
       [0x30D9, 0x30FC, 0x30BF], [0x30DD, 0x30A4, 0x30F3, 0x30C8], [0x30DC, 0x30EB, 0x30C8]]),
   (0x333F, [[0x30DB, 0x30F3], [0x30DD, 0x30F3, 0x30C9], [0x30DB, 0x30FC, 0x30EB],
       [0x30DB, 0x30FC, 0x30F3], [0x30DE, 0x30A4, 0x30AF, 0x30ED], [0x30DE, 0x30A4, 0x30EB],
       [0x30DE, 0x30C3, 0x30CF], [0x30DE, 0x30EB, 0x30AF], [0x30DE, 0x30F3, 0x30B7, 0x30E7, 0x30F3],
       [0x30DF, 0x30AF, 0x30ED, 0x30F3], [0x30DF, 0x30EA], [0x30DF, 0x30EA, 0x30D0, 0x30FC, 0x30EB],
       [0x30E1, 0x30AC], [0x30E1, 0x30AC, 0x30C8, 0x30F3], [0x30E1, 0x30FC, 0x30C8, 0x30EB],
       [0x30E4, 0x30FC, 0x30C9], [0x30E4, 0x30FC, 0x30EB], [0x30E6, 0x30A2, 0x30F3],
       [0x30EA, 0x30C3, 0x30C8, 0x30EB], [0x30EA, 0x30E9], [0x30EB, 0x30D4, 0x30FC],
       [0x30EB, 0x30FC, 0x30D6, 0x30EB], [0x30EC, 0x30E0], [0x30EC, 0x30F3, 0x30C8, 0x30B2, 0x30F3],
       [0x30EF, 0x30C3, 0x30C8], [0x0030, 0x70B9], [0x0031, 0x70B9], [0x0032, 0x70B9],
       [0x0033, 0x70B9], [0x0034, 0x70B9], [0x0035, 0x70B9], [0x0036, 0x70B9]]),
   (0x335F, [[0x0037, 0x70B9], [0x0038, 0x70B9], [0x0039, 0x70B9], [0x0031, 0x0030, 0x70B9],
       [0x0031, 0x0031, 0x70B9], [0x0031, 0x0032, 0x70B9], [0x0031, 0x0033, 0x70B9],
       [0x0031, 0x0034, 0x70B9], [0x0031, 0x0035, 0x70B9], [0x0031, 0x0036, 0x70B9],
       [0x0031, 0x0037, 0x70B9], [0x0031, 0x0038, 0x70B9], [0x0031, 0x0039, 0x70B9],
       [0x0032, 0x0030, 0x70B9], [0x0032, 0x0031, 0x70B9], [0x0032, 0x0032, 0x70B9],
       [0x0032, 0x0033, 0x70B9], [0x0032, 0x0034, 0x70B9], [0x0068, 0x0070, 0x0061],
       [0x0064, 0x0061], [0x0061, 0x0075], [0x0062, 0x0061, 0x0072], [0x006F, 0x0076],
       [0x0070, 0x0063], [0x0064, 0x006D], [0x0064, 0x006D, 0x0032], [0x0064, 0x006D, 0x0033],
       [0x0069, 0x0075], [0x5E73, 0x6210], [0x662D, 0x548C], [0x5927, 0x6B63], [0x660E, 0x6CBB]]),
   (0x337F, [[0x682A, 0x5F0F, 0x4F1A, 0x793E], [0x0070, 0x0061], [0x006E, 0x0061], [0x03BC, 0x0061],
       [0x006D, 0x0061], [0x006B, 0x0061], [0x006B, 0x0062], [0x006D, 0x0062], [0x0067, 0x0062],
       [0x0063, 0x0061, 0x006C], [0x006B, 0x0063, 0x0061, 0x006C], [0x0070, 0x0066],
       [0x006E, 0x0066], [0x03BC, 0x0066], [0x03BC, 0x0067], [0x006D, 0x0067], [0x006B, 0x0067],
       [0x0068, 0x007A], [0x006B, 0x0068, 0x007A], [0x006D, 0x0068, 0x007A],
       [0x0067, 0x0068, 0x007A], [0x0074, 0x0068, 0x007A], [0x03BC, 0x006C], [0x006D, 0x006C],
       [0x0064, 0x006C], [0x006B, 0x006C], [0x0066, 0x006D], [0x006E, 0x006D], [0x03BC, 0x006D],
       [0x006D, 0x006D], [0x0063, 0x006D], [0x006B, 0x006D]]), (0x339F, [[0x006D, 0x006D, 0x0032],
       [0x0063, 0x006D, 0x0032], [0x006D, 0x0032], [0x006B, 0x006D, 0x0032],
       [0x006D, 0x006D, 0x0033], [0x0063, 0x006D, 0x0033], [0x006D, 0x0033],
       [0x006B, 0x006D, 0x0033], [0x006D, 0x2215, 0x0073], [0x006D, 0x2215, 0x0073, 0x0032],
       [0x0070, 0x0061], [0x006B, 0x0070, 0x0061], [0x006D, 0x0070, 0x0061],
       [0x0067, 0x0070, 0x0061], [0x0072, 0x0061, 0x0064], [0x0072, 0x0061, 0x0064, 0x2215, 0x0073],
       [0x0072, 0x0061, 0x0064, 0x2215, 0x0073, 0x0032], [0x0070, 0x0073], [0x006E, 0x0073],
       [0x03BC, 0x0073], [0x006D, 0x0073], [0x0070, 0x0076], [0x006E, 0x0076], [0x03BC, 0x0076],
       [0x006D, 0x0076], [0x006B, 0x0076], [0x006D, 0x0076], [0x0070, 0x0077], [0x006E, 0x0077],
       [0x03BC, 0x0077], [0x006D, 0x0077], [0x006B, 0x0077]]), (0x33BF, [[0x006D, 0x0077],
       [0x006B, 0x03C9], [0x006D, 0x03C9]]), (0x33C3, [[0x0062, 0x0071], [0x0063, 0x0063],
       [0x0063, 0x0064], [0x0063, 0x2215, 0x006B, 0x0067]]), (0x33C8, [[0x0064, 0x0062],
       [0x0067, 0x0079], [0x0068, 0x0061], [0x0068, 0x0070], [0x0069, 0x006E], [0x006B, 0x006B],
       [0x006B, 0x006D], [0x006B, 0x0074], [0x006C, 0x006D], [0x006C, 0x006E],
       [0x006C, 0x006F, 0x0067], [0x006C, 0x0078], [0x006D, 0x0062], [0x006D, 0x0069, 0x006C],
       [0x006D, 0x006F, 0x006C], [0x0070, 0x0068]]), (0x33D9, [[0x0070, 0x0070, 0x006D],
       [0x0070, 0x0072], [0x0073, 0x0072], [0x0073, 0x0076], [0x0077, 0x0062],
       [0x0076, 0x2215, 0x006D], [0x0061, 0x2215, 0x006D], [0x0031, 0x65E5], [0x0032, 0x65E5],
       [0x0033, 0x65E5], [0x0034, 0x65E5], [0x0035, 0x65E5], [0x0036, 0x65E5], [0x0037, 0x65E5],
       [0x0038, 0x65E5], [0x0039, 0x65E5], [0x0031, 0x0030, 0x65E5], [0x0031, 0x0031, 0x65E5],
       [0x0031, 0x0032, 0x65E5], [0x0031, 0x0033, 0x65E5], [0x0031, 0x0034, 0x65E5],
       [0x0031, 0x0035, 0x65E5], [0x0031, 0x0036, 0x65E5], [0x0031, 0x0037, 0x65E5],
       [0x0031, 0x0038, 0x65E5], [0x0031, 0x0039, 0x65E5], [0x0032, 0x0030, 0x65E5],
       [0x0032, 0x0031, 0x65E5], [0x0032, 0x0032, 0x65E5], [0x0032, 0x0033, 0x65E5],
       [0x0032, 0x0034, 0x65E5], [0x0032, 0x0035, 0x65E5]]), (0x33F9, [[0x0032, 0x0036, 0x65E5],
       [0x0032, 0x0037, 0x65E5], [0x0032, 0x0038, 0x65E5], [0x0032, 0x0039, 0x65E5],
       [0x0033, 0x0030, 0x65E5], [0x0033, 0x0031, 0x65E5], [0x0067, 0x0061, 0x006C]]),
   (0xFB00, [[0x0066, 0x0066], [0x0066, 0x0069], [0x0066, 0x006C], [0x0066, 0x0066, 0x0069],
       [0x0066, 0x0066, 0x006C], [0x0073, 0x0074], [0x0073, 0x0074]]), (0xFB13, [[0x0574, 0x0576],
       [0x0574, 0x0565], [0x0574, 0x056B], [0x057E, 0x0576], [0x0574, 0x056D]]),
   (0xFB1D, [[0x05D9, 0x05B4]]), (0xFB1F, [[0x05F2, 0x05B7]]), (0xFB2A, [[0x05E9, 0x05C1],
       [0x05E9, 0x05C2], [0x05E9, 0x05BC, 0x05C1], [0x05E9, 0x05BC, 0x05C2], [0x05D0, 0x05B7],
       [0x05D0, 0x05B8], [0x05D0, 0x05BC], [0x05D1, 0x05BC], [0x05D2, 0x05BC], [0x05D3, 0x05BC],
       [0x05D4, 0x05BC], [0x05D5, 0x05BC], [0x05D6, 0x05BC]]), (0xFB38, [[0x05D8, 0x05BC],
       [0x05D9, 0x05BC], [0x05DA, 0x05BC], [0x05DB, 0x05BC], [0x05DC, 0x05BC]]),
   (0xFB3E, [[0x05DE, 0x05BC]]), (0xFB40, [[0x05E0, 0x05BC], [0x05E1, 0x05BC]]),
   (0xFB43, [[0x05E3, 0x05BC], [0x05E4, 0x05BC]]), (0xFB46, [[0x05E6, 0x05BC], [0x05E7, 0x05BC],
       [0x05E8, 0x05BC], [0x05E9, 0x05BC], [0x05EA, 0x05BC], [0x05D5, 0x05B9], [0x05D1, 0x05BF],
       [0x05DB, 0x05BF], [0x05E4, 0x05BF], [0x05D0, 0x05DC]]), (0xFBDD, [[0x06C7, 0x0674]]),
   (0xFBEA, [[0x0626, 0x0627], [0x0626, 0x0627], [0x0626, 0x06D5], [0x0626, 0x06D5],
       [0x0626, 0x0648], [0x0626, 0x0648], [0x0626, 0x06C7], [0x0626, 0x06C7], [0x0626, 0x06C6],
       [0x0626, 0x06C6], [0x0626, 0x06C8], [0x0626, 0x06C8], [0x0626, 0x06D0], [0x0626, 0x06D0],
       [0x0626, 0x06D0], [0x0626, 0x0649], [0x0626, 0x0649], [0x0626, 0x0649]]),
   (0xFC00, [[0x0626, 0x062C], [0x0626, 0x062D], [0x0626, 0x0645], [0x0626, 0x0649],
       [0x0626, 0x064A], [0x0628, 0x062C], [0x0628, 0x062D], [0x0628, 0x062E], [0x0628, 0x0645],
       [0x0628, 0x0649], [0x0628, 0x064A], [0x062A, 0x062C], [0x062A, 0x062D], [0x062A, 0x062E],
       [0x062A, 0x0645], [0x062A, 0x0649], [0x062A, 0x064A], [0x062B, 0x062C], [0x062B, 0x0645],
       [0x062B, 0x0649], [0x062B, 0x064A], [0x062C, 0x062D], [0x062C, 0x0645], [0x062D, 0x062C],
       [0x062D, 0x0645], [0x062E, 0x062C], [0x062E, 0x062D], [0x062E, 0x0645], [0x0633, 0x062C],
       [0x0633, 0x062D], [0x0633, 0x062E], [0x0633, 0x0645]]), (0xFC20, [[0x0635, 0x062D],
       [0x0635, 0x0645], [0x0636, 0x062C], [0x0636, 0x062D], [0x0636, 0x062E], [0x0636, 0x0645],
       [0x0637, 0x062D], [0x0637, 0x0645], [0x0638, 0x0645], [0x0639, 0x062C], [0x0639, 0x0645],
       [0x063A, 0x062C], [0x063A, 0x0645], [0x0641, 0x062C], [0x0641, 0x062D], [0x0641, 0x062E],
       [0x0641, 0x0645], [0x0641, 0x0649], [0x0641, 0x064A], [0x0642, 0x062D], [0x0642, 0x0645],
       [0x0642, 0x0649], [0x0642, 0x064A], [0x0643, 0x0627], [0x0643, 0x062C], [0x0643, 0x062D],
       [0x0643, 0x062E], [0x0643, 0x0644], [0x0643, 0x0645], [0x0643, 0x0649], [0x0643, 0x064A],
       [0x0644, 0x062C]]), (0xFC40, [[0x0644, 0x062D], [0x0644, 0x062E], [0x0644, 0x0645],
       [0x0644, 0x0649], [0x0644, 0x064A], [0x0645, 0x062C], [0x0645, 0x062D], [0x0645, 0x062E],
       [0x0645, 0x0645], [0x0645, 0x0649], [0x0645, 0x064A], [0x0646, 0x062C], [0x0646, 0x062D],
       [0x0646, 0x062E], [0x0646, 0x0645], [0x0646, 0x0649], [0x0646, 0x064A], [0x0647, 0x062C],
       [0x0647, 0x0645], [0x0647, 0x0649], [0x0647, 0x064A], [0x064A, 0x062C], [0x064A, 0x062D],
       [0x064A, 0x062E], [0x064A, 0x0645], [0x064A, 0x0649], [0x064A, 0x064A], [0x0630, 0x0670],
       [0x0631, 0x0670], [0x0649, 0x0670], [0x0020, 0x064C, 0x0651], [0x0020, 0x064D, 0x0651]]),
   (0xFC60, [[0x0020, 0x064E, 0x0651], [0x0020, 0x064F, 0x0651], [0x0020, 0x0650, 0x0651],
       [0x0020, 0x0651, 0x0670], [0x0626, 0x0631], [0x0626, 0x0632], [0x0626, 0x0645],
       [0x0626, 0x0646], [0x0626, 0x0649], [0x0626, 0x064A], [0x0628, 0x0631], [0x0628, 0x0632],
       [0x0628, 0x0645], [0x0628, 0x0646], [0x0628, 0x0649], [0x0628, 0x064A], [0x062A, 0x0631],
       [0x062A, 0x0632], [0x062A, 0x0645], [0x062A, 0x0646], [0x062A, 0x0649], [0x062A, 0x064A],
       [0x062B, 0x0631], [0x062B, 0x0632], [0x062B, 0x0645], [0x062B, 0x0646], [0x062B, 0x0649],
       [0x062B, 0x064A], [0x0641, 0x0649], [0x0641, 0x064A], [0x0642, 0x0649], [0x0642, 0x064A]]),
   (0xFC80, [[0x0643, 0x0627], [0x0643, 0x0644], [0x0643, 0x0645], [0x0643, 0x0649],
       [0x0643, 0x064A], [0x0644, 0x0645], [0x0644, 0x0649], [0x0644, 0x064A], [0x0645, 0x0627],
       [0x0645, 0x0645], [0x0646, 0x0631], [0x0646, 0x0632], [0x0646, 0x0645], [0x0646, 0x0646],
       [0x0646, 0x0649], [0x0646, 0x064A], [0x0649, 0x0670], [0x064A, 0x0631], [0x064A, 0x0632],
       [0x064A, 0x0645], [0x064A, 0x0646], [0x064A, 0x0649], [0x064A, 0x064A], [0x0626, 0x062C],
       [0x0626, 0x062D], [0x0626, 0x062E], [0x0626, 0x0645], [0x0626, 0x0647], [0x0628, 0x062C],
       [0x0628, 0x062D], [0x0628, 0x062E], [0x0628, 0x0645]]), (0xFCA0, [[0x0628, 0x0647],
       [0x062A, 0x062C], [0x062A, 0x062D], [0x062A, 0x062E], [0x062A, 0x0645], [0x062A, 0x0647],
       [0x062B, 0x0645], [0x062C, 0x062D], [0x062C, 0x0645], [0x062D, 0x062C], [0x062D, 0x0645],
       [0x062E, 0x062C], [0x062E, 0x0645], [0x0633, 0x062C], [0x0633, 0x062D], [0x0633, 0x062E],
       [0x0633, 0x0645], [0x0635, 0x062D], [0x0635, 0x062E], [0x0635, 0x0645], [0x0636, 0x062C],
       [0x0636, 0x062D], [0x0636, 0x062E], [0x0636, 0x0645], [0x0637, 0x062D], [0x0638, 0x0645],
       [0x0639, 0x062C], [0x0639, 0x0645], [0x063A, 0x062C], [0x063A, 0x0645], [0x0641, 0x062C],
       [0x0641, 0x062D]]), (0xFCC0, [[0x0641, 0x062E], [0x0641, 0x0645], [0x0642, 0x062D],
       [0x0642, 0x0645], [0x0643, 0x062C], [0x0643, 0x062D], [0x0643, 0x062E], [0x0643, 0x0644],
       [0x0643, 0x0645], [0x0644, 0x062C], [0x0644, 0x062D], [0x0644, 0x062E], [0x0644, 0x0645],
       [0x0644, 0x0647], [0x0645, 0x062C], [0x0645, 0x062D], [0x0645, 0x062E], [0x0645, 0x0645],
       [0x0646, 0x062C], [0x0646, 0x062D], [0x0646, 0x062E], [0x0646, 0x0645], [0x0646, 0x0647],
       [0x0647, 0x062C], [0x0647, 0x0645], [0x0647, 0x0670], [0x064A, 0x062C], [0x064A, 0x062D],
       [0x064A, 0x062E], [0x064A, 0x0645], [0x064A, 0x0647], [0x0626, 0x0645]]),
   (0xFCE0, [[0x0626, 0x0647], [0x0628, 0x0645], [0x0628, 0x0647], [0x062A, 0x0645],
       [0x062A, 0x0647], [0x062B, 0x0645], [0x062B, 0x0647], [0x0633, 0x0645], [0x0633, 0x0647],
       [0x0634, 0x0645], [0x0634, 0x0647], [0x0643, 0x0644], [0x0643, 0x0645], [0x0644, 0x0645],
       [0x0646, 0x0645], [0x0646, 0x0647], [0x064A, 0x0645], [0x064A, 0x0647],
       [0x0640, 0x064E, 0x0651], [0x0640, 0x064F, 0x0651], [0x0640, 0x0650, 0x0651],
       [0x0637, 0x0649], [0x0637, 0x064A], [0x0639, 0x0649], [0x0639, 0x064A], [0x063A, 0x0649],
       [0x063A, 0x064A], [0x0633, 0x0649], [0x0633, 0x064A], [0x0634, 0x0649], [0x0634, 0x064A],
       [0x062D, 0x0649]]), (0xFD00, [[0x062D, 0x064A], [0x062C, 0x0649], [0x062C, 0x064A],
       [0x062E, 0x0649], [0x062E, 0x064A], [0x0635, 0x0649], [0x0635, 0x064A], [0x0636, 0x0649],
       [0x0636, 0x064A], [0x0634, 0x062C], [0x0634, 0x062D], [0x0634, 0x062E], [0x0634, 0x0645],
       [0x0634, 0x0631], [0x0633, 0x0631], [0x0635, 0x0631], [0x0636, 0x0631], [0x0637, 0x0649],
       [0x0637, 0x064A], [0x0639, 0x0649], [0x0639, 0x064A], [0x063A, 0x0649], [0x063A, 0x064A],
       [0x0633, 0x0649], [0x0633, 0x064A], [0x0634, 0x0649], [0x0634, 0x064A], [0x062D, 0x0649],
       [0x062D, 0x064A], [0x062C, 0x0649], [0x062C, 0x064A], [0x062E, 0x0649]]),
   (0xFD20, [[0x062E, 0x064A], [0x0635, 0x0649], [0x0635, 0x064A], [0x0636, 0x0649],
       [0x0636, 0x064A], [0x0634, 0x062C], [0x0634, 0x062D], [0x0634, 0x062E], [0x0634, 0x0645],
       [0x0634, 0x0631], [0x0633, 0x0631], [0x0635, 0x0631], [0x0636, 0x0631], [0x0634, 0x062C],
       [0x0634, 0x062D], [0x0634, 0x062E], [0x0634, 0x0645], [0x0633, 0x0647], [0x0634, 0x0647],
       [0x0637, 0x0645], [0x0633, 0x062C], [0x0633, 0x062D], [0x0633, 0x062E], [0x0634, 0x062C],
       [0x0634, 0x062D], [0x0634, 0x062E], [0x0637, 0x0645], [0x0638, 0x0645], [0x0627, 0x064B],
       [0x0627, 0x064B]]), (0xFD50, [[0x062A, 0x062C, 0x0645], [0x062A, 0x062D, 0x062C],
       [0x062A, 0x062D, 0x062C], [0x062A, 0x062D, 0x0645], [0x062A, 0x062E, 0x0645],
       [0x062A, 0x0645, 0x062C], [0x062A, 0x0645, 0x062D], [0x062A, 0x0645, 0x062E],
       [0x062C, 0x0645, 0x062D], [0x062C, 0x0645, 0x062D], [0x062D, 0x0645, 0x064A],
       [0x062D, 0x0645, 0x0649], [0x0633, 0x062D, 0x062C], [0x0633, 0x062C, 0x062D],
       [0x0633, 0x062C, 0x0649], [0x0633, 0x0645, 0x062D], [0x0633, 0x0645, 0x062D],
       [0x0633, 0x0645, 0x062C], [0x0633, 0x0645, 0x0645], [0x0633, 0x0645, 0x0645],
       [0x0635, 0x062D, 0x062D], [0x0635, 0x062D, 0x062D], [0x0635, 0x0645, 0x0645],
       [0x0634, 0x062D, 0x0645], [0x0634, 0x062D, 0x0645], [0x0634, 0x062C, 0x064A],
       [0x0634, 0x0645, 0x062E], [0x0634, 0x0645, 0x062E], [0x0634, 0x0645, 0x0645],
       [0x0634, 0x0645, 0x0645], [0x0636, 0x062D, 0x0649], [0x0636, 0x062E, 0x0645]]),
   (0xFD70, [[0x0636, 0x062E, 0x0645], [0x0637, 0x0645, 0x062D], [0x0637, 0x0645, 0x062D],
       [0x0637, 0x0645, 0x0645], [0x0637, 0x0645, 0x064A], [0x0639, 0x062C, 0x0645],
       [0x0639, 0x0645, 0x0645], [0x0639, 0x0645, 0x0645], [0x0639, 0x0645, 0x0649],
       [0x063A, 0x0645, 0x0645], [0x063A, 0x0645, 0x064A], [0x063A, 0x0645, 0x0649],
       [0x0641, 0x062E, 0x0645], [0x0641, 0x062E, 0x0645], [0x0642, 0x0645, 0x062D],
       [0x0642, 0x0645, 0x0645], [0x0644, 0x062D, 0x0645], [0x0644, 0x062D, 0x064A],
       [0x0644, 0x062D, 0x0649], [0x0644, 0x062C, 0x062C], [0x0644, 0x062C, 0x062C],
       [0x0644, 0x062E, 0x0645], [0x0644, 0x062E, 0x0645], [0x0644, 0x0645, 0x062D],
       [0x0644, 0x0645, 0x062D], [0x0645, 0x062D, 0x062C], [0x0645, 0x062D, 0x0645],
       [0x0645, 0x062D, 0x064A], [0x0645, 0x062C, 0x062D], [0x0645, 0x062C, 0x0645],
       [0x0645, 0x062E, 0x062C], [0x0645, 0x062E, 0x0645]]), (0xFD92, [[0x0645, 0x062C, 0x062E],
       [0x0647, 0x0645, 0x062C], [0x0647, 0x0645, 0x0645], [0x0646, 0x062D, 0x0645],
       [0x0646, 0x062D, 0x0649], [0x0646, 0x062C, 0x0645], [0x0646, 0x062C, 0x0645],
       [0x0646, 0x062C, 0x0649], [0x0646, 0x0645, 0x064A], [0x0646, 0x0645, 0x0649],
       [0x064A, 0x0645, 0x0645], [0x064A, 0x0645, 0x0645], [0x0628, 0x062E, 0x064A],
       [0x062A, 0x062C, 0x064A], [0x062A, 0x062C, 0x0649], [0x062A, 0x062E, 0x064A],
       [0x062A, 0x062E, 0x0649], [0x062A, 0x0645, 0x064A], [0x062A, 0x0645, 0x0649],
       [0x062C, 0x0645, 0x064A], [0x062C, 0x062D, 0x0649], [0x062C, 0x0645, 0x0649],
       [0x0633, 0x062E, 0x0649], [0x0635, 0x062D, 0x064A], [0x0634, 0x062D, 0x064A],
       [0x0636, 0x062D, 0x064A], [0x0644, 0x062C, 0x064A], [0x0644, 0x0645, 0x064A],
       [0x064A, 0x062D, 0x064A], [0x064A, 0x062C, 0x064A], [0x064A, 0x0645, 0x064A],
       [0x0645, 0x0645, 0x064A]]), (0xFDB2, [[0x0642, 0x0645, 0x064A], [0x0646, 0x062D, 0x064A],
       [0x0642, 0x0645, 0x062D], [0x0644, 0x062D, 0x0645], [0x0639, 0x0645, 0x064A],
       [0x0643, 0x0645, 0x064A], [0x0646, 0x062C, 0x062D], [0x0645, 0x062E, 0x064A],
       [0x0644, 0x062C, 0x0645], [0x0643, 0x0645, 0x0645], [0x0644, 0x062C, 0x0645],
       [0x0646, 0x062C, 0x062D], [0x062C, 0x062D, 0x064A], [0x062D, 0x062C, 0x064A],
       [0x0645, 0x062C, 0x064A], [0x0641, 0x0645, 0x064A], [0x0628, 0x062D, 0x064A],
       [0x0643, 0x0645, 0x0645], [0x0639, 0x062C, 0x0645], [0x0635, 0x0645, 0x0645],
       [0x0633, 0x062E, 0x064A], [0x0646, 0x062C, 0x064A]]), (0xFDF0, [[0x0635, 0x0644, 0x06D2],
       [0x0642, 0x0644, 0x06D2], [0x0627, 0x0644, 0x0644, 0x0647], [0x0627, 0x0643, 0x0628, 0x0631],
       [0x0645, 0x062D, 0x0645, 0x062F], [0x0635, 0x0644, 0x0639, 0x0645],
       [0x0631, 0x0633, 0x0648, 0x0644], [0x0639, 0x0644, 0x064A, 0x0647],
       [0x0648, 0x0633, 0x0644, 0x0645], [0x0635, 0x0644, 0x0649],
       [0x0635, 0x0644, 0x0649, 0x0020, 0x0627, 0x0644, 0x0644, 0x0647, 0x0020, 0x0639, 0x0644, 0x064A, 0x0647, 0x0020, 0x0648, 0x0633, 0x0644, 0x0645],
       [0x062C, 0x0644, 0x0020, 0x062C, 0x0644, 0x0627, 0x0644, 0x0647],
       [0x0631, 0x06CC, 0x0627, 0x0644]]), (0xFE49, [[0x0020, 0x0305], [0x0020, 0x0305],
       [0x0020, 0x0305], [0x0020, 0x0305]]), (0xFE70, [[0x0020, 0x064B], [0x0640, 0x064B],
       [0x0020, 0x064C]]), (0xFE74, [[0x0020, 0x064D]]), (0xFE76, [[0x0020, 0x064E],
       [0x0640, 0x064E], [0x0020, 0x064F], [0x0640, 0x064F], [0x0020, 0x0650], [0x0640, 0x0650],
       [0x0020, 0x0651], [0x0640, 0x0651], [0x0020, 0x0652], [0x0640, 0x0652]]),
   (0xFEF5, [[0x0644, 0x0622], [0x0644, 0x0622], [0x0644, 0x0623], [0x0644, 0x0623],
       [0x0644, 0x0625], [0x0644, 0x0625], [0x0644, 0x0627], [0x0644, 0x0627]]),
   (0xFFE3, [[0x0020, 0x0304]]), (0x1D15E, [[0x1D157, 0x1D165], [0x1D158, 0x1D165],
       [0x1D158, 0x1D165, 0x1D16E], [0x1D158, 0x1D165, 0x1D16F], [0x1D158, 0x1D165, 0x1D170],
       [0x1D158, 0x1D165, 0x1D171], [0x1D158, 0x1D165, 0x1D172]]), (0x1D1BB, [[0x1D1B9, 0x1D165],
       [0x1D1BA, 0x1D165], [0x1D1B9, 0x1D165, 0x1D16E], [0x1D1BA, 0x1D165, 0x1D16E],
       [0x1D1B9, 0x1D165, 0x1D16F], [0x1D1BA, 0x1D165, 0x1D16F]]), (0x1F101, [[0x0030, 0x002C],
       [0x0031, 0x002C], [0x0032, 0x002C], [0x0033, 0x002C], [0x0034, 0x002C], [0x0035, 0x002C],
       [0x0036, 0x002C], [0x0037, 0x002C], [0x0038, 0x002C], [0x0039, 0x002C]]),
   (0x1F110, [[0x0028, 0x0061, 0x0029], [0x0028, 0x0062, 0x0029], [0x0028, 0x0063, 0x0029],
       [0x0028, 0x0064, 0x0029], [0x0028, 0x0065, 0x0029], [0x0028, 0x0066, 0x0029],
       [0x0028, 0x0067, 0x0029], [0x0028, 0x0068, 0x0029], [0x0028, 0x0069, 0x0029],
       [0x0028, 0x006A, 0x0029], [0x0028, 0x006B, 0x0029], [0x0028, 0x006C, 0x0029],
       [0x0028, 0x006D, 0x0029], [0x0028, 0x006E, 0x0029], [0x0028, 0x006F, 0x0029],
       [0x0028, 0x0070, 0x0029], [0x0028, 0x0071, 0x0029], [0x0028, 0x0072, 0x0029],
       [0x0028, 0x0073, 0x0029], [0x0028, 0x0074, 0x0029], [0x0028, 0x0075, 0x0029],
       [0x0028, 0x0076, 0x0029], [0x0028, 0x0077, 0x0029], [0x0028, 0x0078, 0x0029],
       [0x0028, 0x0079, 0x0029], [0x0028, 0x007A, 0x0029], [0x3014, 0x0073, 0x3015]]),
   (0x1F12D, [[0x0063, 0x0064], [0x0077, 0x007A]]), (0x1F14A, [[0x0068, 0x0076], [0x006D, 0x0076],
       [0x0073, 0x0064], [0x0073, 0x0073], [0x0070, 0x0070, 0x0076], [0x0077, 0x0063]]),
   (0x1F16A, [[0x006D, 0x0063], [0x006D, 0x0064], [0x006D, 0x0072]]), (0x1F190, [[0x0064, 0x006A]]),
   (0x1F200, [[0x307B, 0x304B], [0x30B3, 0x30B3]]), (0x1F240, [[0x3014, 0x672C, 0x3015],
       [0x3014, 0x4E09, 0x3015], [0x3014, 0x4E8C, 0x3015], [0x3014, 0x5B89, 0x3015],
       [0x3014, 0x70B9, 0x3015], [0x3014, 0x6253, 0x3015], [0x3014, 0x76D7, 0x3015],
       [0x3014, 0x52DD, 0x3015], [0x3014, 0x6557, 0x3015]])]

/-- Characters that are left out. -/
def ignoredRanges : List (Nat × Nat) :=
  [(0x00AD, 0x00AD), (0x034F, 0x034F), (0x115F, 0x1160), (0x17B4, 0x17B5), (0x180B, 0x180F),
   (0x200B, 0x200B), (0x2060, 0x2064), (0x206A, 0x206F), (0x3164, 0x3164), (0xFE00, 0xFE0F),
   (0xFEFF, 0xFEFF), (0xFFA0, 0xFFA0), (0x1BCA0, 0x1BCA3), (0x1D173, 0x1D17A), (0xE0100, 0xE01EF)]

/-- Characters that stand for themselves, unless they stand for others. -/
def allowedRanges : List (Nat × Nat) :=
  [(0x00A0, 0x00AC), (0x00AE, 0x034E), (0x0350, 0x0377), (0x037A, 0x037F), (0x0384, 0x038A),
   (0x038C, 0x038C), (0x038E, 0x03A1), (0x03A3, 0x052F), (0x0531, 0x0556), (0x0559, 0x058A),
   (0x058D, 0x058F), (0x0591, 0x05C7), (0x05D0, 0x05EA), (0x05EF, 0x05F4), (0x0606, 0x061B),
   (0x061D, 0x06DC), (0x06DE, 0x070D), (0x0710, 0x074A), (0x074D, 0x07B1), (0x07C0, 0x07FA),
   (0x07FD, 0x082D), (0x0830, 0x083E), (0x0840, 0x085B), (0x085E, 0x085E), (0x0860, 0x086A),
   (0x0870, 0x088F), (0x0897, 0x08E1), (0x08E3, 0x0983), (0x0985, 0x098C), (0x098F, 0x0990),
   (0x0993, 0x09A8), (0x09AA, 0x09B0), (0x09B2, 0x09B2), (0x09B6, 0x09B9), (0x09BC, 0x09C4),
   (0x09C7, 0x09C8), (0x09CB, 0x09CE), (0x09D7, 0x09D7), (0x09DC, 0x09DD), (0x09DF, 0x09E3),
   (0x09E6, 0x09FE), (0x0A01, 0x0A03), (0x0A05, 0x0A0A), (0x0A0F, 0x0A10), (0x0A13, 0x0A28),
   (0x0A2A, 0x0A30), (0x0A32, 0x0A33), (0x0A35, 0x0A36), (0x0A38, 0x0A39), (0x0A3C, 0x0A3C),
   (0x0A3E, 0x0A42), (0x0A47, 0x0A48), (0x0A4B, 0x0A4D), (0x0A51, 0x0A51), (0x0A59, 0x0A5C),
   (0x0A5E, 0x0A5E), (0x0A66, 0x0A76), (0x0A81, 0x0A83), (0x0A85, 0x0A8D), (0x0A8F, 0x0A91),
   (0x0A93, 0x0AA8), (0x0AAA, 0x0AB0), (0x0AB2, 0x0AB3), (0x0AB5, 0x0AB9), (0x0ABC, 0x0AC5),
   (0x0AC7, 0x0AC9), (0x0ACB, 0x0ACD), (0x0AD0, 0x0AD0), (0x0AE0, 0x0AE3), (0x0AE6, 0x0AF1),
   (0x0AF9, 0x0AFF), (0x0B01, 0x0B03), (0x0B05, 0x0B0C), (0x0B0F, 0x0B10), (0x0B13, 0x0B28),
   (0x0B2A, 0x0B30), (0x0B32, 0x0B33), (0x0B35, 0x0B39), (0x0B3C, 0x0B44), (0x0B47, 0x0B48),
   (0x0B4B, 0x0B4D), (0x0B55, 0x0B57), (0x0B5C, 0x0B5D), (0x0B5F, 0x0B63), (0x0B66, 0x0B77),
   (0x0B82, 0x0B83), (0x0B85, 0x0B8A), (0x0B8E, 0x0B90), (0x0B92, 0x0B95), (0x0B99, 0x0B9A),
   (0x0B9C, 0x0B9C), (0x0B9E, 0x0B9F), (0x0BA3, 0x0BA4), (0x0BA8, 0x0BAA), (0x0BAE, 0x0BB9),
   (0x0BBE, 0x0BC2), (0x0BC6, 0x0BC8), (0x0BCA, 0x0BCD), (0x0BD0, 0x0BD0), (0x0BD7, 0x0BD7),
   (0x0BE6, 0x0BFA), (0x0C00, 0x0C0C), (0x0C0E, 0x0C10), (0x0C12, 0x0C28), (0x0C2A, 0x0C39),
   (0x0C3C, 0x0C44), (0x0C46, 0x0C48), (0x0C4A, 0x0C4D), (0x0C55, 0x0C56), (0x0C58, 0x0C5A),
   (0x0C5C, 0x0C5D), (0x0C60, 0x0C63), (0x0C66, 0x0C6F), (0x0C77, 0x0C8C), (0x0C8E, 0x0C90),
   (0x0C92, 0x0CA8), (0x0CAA, 0x0CB3), (0x0CB5, 0x0CB9), (0x0CBC, 0x0CC4), (0x0CC6, 0x0CC8),
   (0x0CCA, 0x0CCD), (0x0CD5, 0x0CD6), (0x0CDC, 0x0CDE), (0x0CE0, 0x0CE3), (0x0CE6, 0x0CEF),
   (0x0CF1, 0x0CF3), (0x0D00, 0x0D0C), (0x0D0E, 0x0D10), (0x0D12, 0x0D44), (0x0D46, 0x0D48),
   (0x0D4A, 0x0D4F), (0x0D54, 0x0D63), (0x0D66, 0x0D7F), (0x0D81, 0x0D83), (0x0D85, 0x0D96),
   (0x0D9A, 0x0DB1), (0x0DB3, 0x0DBB), (0x0DBD, 0x0DBD), (0x0DC0, 0x0DC6), (0x0DCA, 0x0DCA),
   (0x0DCF, 0x0DD4), (0x0DD6, 0x0DD6), (0x0DD8, 0x0DDF), (0x0DE6, 0x0DEF), (0x0DF2, 0x0DF4),
   (0x0E01, 0x0E3A), (0x0E3F, 0x0E5B), (0x0E81, 0x0E82), (0x0E84, 0x0E84), (0x0E86, 0x0E8A),
   (0x0E8C, 0x0EA3), (0x0EA5, 0x0EA5), (0x0EA7, 0x0EBD), (0x0EC0, 0x0EC4), (0x0EC6, 0x0EC6),
   (0x0EC8, 0x0ECE), (0x0ED0, 0x0ED9), (0x0EDC, 0x0EDF), (0x0F00, 0x0F47), (0x0F49, 0x0F6C),
   (0x0F71, 0x0F97), (0x0F99, 0x0FBC), (0x0FBE, 0x0FCC), (0x0FCE, 0x0FDA), (0x1000, 0x10C5),
   (0x10C7, 0x10C7), (0x10CD, 0x10CD), (0x10D0, 0x115E), (0x1161, 0x1248), (0x124A, 0x124D),
   (0x1250, 0x1256), (0x1258, 0x1258), (0x125A, 0x125D), (0x1260, 0x1288), (0x128A, 0x128D),
   (0x1290, 0x12B0), (0x12B2, 0x12B5), (0x12B8, 0x12BE), (0x12C0, 0x12C0), (0x12C2, 0x12C5),
   (0x12C8, 0x12D6), (0x12D8, 0x1310), (0x1312, 0x1315), (0x1318, 0x135A), (0x135D, 0x137C),
   (0x1380, 0x1399), (0x13A0, 0x13F5), (0x13F8, 0x13FD), (0x1400, 0x167F), (0x1681, 0x169C),
   (0x16A0, 0x16F8), (0x1700, 0x1715), (0x171F, 0x1736), (0x1740, 0x1753), (0x1760, 0x176C),
   (0x176E, 0x1770), (0x1772, 0x1773), (0x1780, 0x17B3), (0x17B6, 0x17DD), (0x17E0, 0x17E9),
   (0x17F0, 0x17F9), (0x1800, 0x180A), (0x1810, 0x1819), (0x1820, 0x1878), (0x1880, 0x18AA),
   (0x18B0, 0x18F5), (0x1900, 0x191E), (0x1920, 0x192B), (0x1930, 0x193B), (0x1940, 0x1940),
   (0x1944, 0x196D), (0x1970, 0x1974), (0x1980, 0x19AB), (0x19B0, 0x19C9), (0x19D0, 0x19DA),
   (0x19DE, 0x1A1B), (0x1A1E, 0x1A5E), (0x1A60, 0x1A7C), (0x1A7F, 0x1A89), (0x1A90, 0x1A99),
   (0x1AA0, 0x1AAD), (0x1AB0, 0x1ADD), (0x1AE0, 0x1AEB), (0x1B00, 0x1B4C), (0x1B4E, 0x1BF3),
   (0x1BFC, 0x1C37), (0x1C3B, 0x1C49), (0x1C4D, 0x1C8A), (0x1C90, 0x1CBA), (0x1CBD, 0x1CC7),
   (0x1CD0, 0x1CFA), (0x1D00, 0x1F15), (0x1F18, 0x1F1D), (0x1F20, 0x1F45), (0x1F48, 0x1F4D),
   (0x1F50, 0x1F57), (0x1F59, 0x1F59), (0x1F5B, 0x1F5B), (0x1F5D, 0x1F5D), (0x1F5F, 0x1F7D),
   (0x1F80, 0x1FB4), (0x1FB6, 0x1FC4), (0x1FC6, 0x1FD3), (0x1FD6, 0x1FDB), (0x1FDD, 0x1FEF),
   (0x1FF2, 0x1FF4), (0x1FF6, 0x1FFE), (0x2000, 0x200A), (0x200C, 0x200D), (0x2010, 0x2023),
   (0x2027, 0x2027), (0x202F, 0x205F), (0x2070, 0x2071), (0x2074, 0x208E), (0x2090, 0x209C),
   (0x20A0, 0x20C1), (0x20D0, 0x20F0), (0x2100, 0x218B), (0x2190, 0x2429), (0x2440, 0x244A),
   (0x2460, 0x2487), (0x249C, 0x2B73), (0x2B76, 0x2CF3), (0x2CF9, 0x2D25), (0x2D27, 0x2D27),
   (0x2D2D, 0x2D2D), (0x2D30, 0x2D67), (0x2D6F, 0x2D70), (0x2D7F, 0x2D96), (0x2DA0, 0x2DA6),
   (0x2DA8, 0x2DAE), (0x2DB0, 0x2DB6), (0x2DB8, 0x2DBE), (0x2DC0, 0x2DC6), (0x2DC8, 0x2DCE),
   (0x2DD0, 0x2DD6), (0x2DD8, 0x2DDE), (0x2DE0, 0x2E5D), (0x2E80, 0x2E99), (0x2E9B, 0x2EF3),
   (0x2F00, 0x2FD5), (0x3000, 0x303F), (0x3041, 0x3096), (0x3099, 0x30FF), (0x3105, 0x312F),
   (0x3131, 0x3163), (0x3165, 0x318E), (0x3190, 0x31E5), (0x31F0, 0x321E), (0x3220, 0x33C1),
   (0x33C3, 0x33C6), (0x33C8, 0x33D7), (0x33D9, 0xA48C), (0xA490, 0xA4C6), (0xA4D0, 0xA62B),
   (0xA640, 0xA6F7), (0xA700, 0xA7DC), (0xA7F1, 0xA82C), (0xA830, 0xA839), (0xA840, 0xA877),
   (0xA880, 0xA8C5), (0xA8CE, 0xA8D9), (0xA8E0, 0xA953), (0xA95F, 0xA97C), (0xA980, 0xA9CD),
   (0xA9CF, 0xA9D9), (0xA9DE, 0xA9FE), (0xAA00, 0xAA36), (0xAA40, 0xAA4D), (0xAA50, 0xAA59),
   (0xAA5C, 0xAAC2), (0xAADB, 0xAAF6), (0xAB01, 0xAB06), (0xAB09, 0xAB0E), (0xAB11, 0xAB16),
   (0xAB20, 0xAB26), (0xAB28, 0xAB2E), (0xAB30, 0xAB6B), (0xAB70, 0xABED), (0xABF0, 0xABF9),
   (0xAC00, 0xD7A3), (0xD7B0, 0xD7C6), (0xD7CB, 0xD7FB), (0xF900, 0xFA6D), (0xFA70, 0xFAD9),
   (0xFB00, 0xFB06), (0xFB13, 0xFB17), (0xFB1D, 0xFB36), (0xFB38, 0xFB3C), (0xFB3E, 0xFB3E),
   (0xFB40, 0xFB41), (0xFB43, 0xFB44), (0xFB46, 0xFDCF), (0xFDF0, 0xFDFF), (0xFE10, 0xFE11),
   (0xFE13, 0xFE18), (0xFE20, 0xFE2F), (0xFE31, 0xFE51), (0xFE54, 0xFE66), (0xFE68, 0xFE6B),
   (0xFE70, 0xFE74), (0xFE76, 0xFEFC), (0xFF01, 0xFF9F), (0xFFA1, 0xFFBE), (0xFFC2, 0xFFC7),
   (0xFFCA, 0xFFCF), (0xFFD2, 0xFFD7), (0xFFDA, 0xFFDC), (0xFFE0, 0xFFE6), (0xFFE8, 0xFFEE),
   (0x10000, 0x1000B), (0x1000D, 0x10026), (0x10028, 0x1003A), (0x1003C, 0x1003D),
   (0x1003F, 0x1004D), (0x10050, 0x1005D), (0x10080, 0x100FA), (0x10100, 0x10102),
   (0x10107, 0x10133), (0x10137, 0x1018E), (0x10190, 0x1019C), (0x101A0, 0x101A0),
   (0x101D0, 0x101FD), (0x10280, 0x1029C), (0x102A0, 0x102D0), (0x102E0, 0x102FB),
   (0x10300, 0x10323), (0x1032D, 0x1034A), (0x10350, 0x1037A), (0x10380, 0x1039D),
   (0x1039F, 0x103C3), (0x103C8, 0x103D5), (0x10400, 0x1049D), (0x104A0, 0x104A9),
   (0x104B0, 0x104D3), (0x104D8, 0x104FB), (0x10500, 0x10527), (0x10530, 0x10563),
   (0x1056F, 0x1057A), (0x1057C, 0x1058A), (0x1058C, 0x10592), (0x10594, 0x10595),
   (0x10597, 0x105A1), (0x105A3, 0x105B1), (0x105B3, 0x105B9), (0x105BB, 0x105BC),
   (0x105C0, 0x105F3), (0x10600, 0x10736), (0x10740, 0x10755), (0x10760, 0x10767),
   (0x10780, 0x10785), (0x10787, 0x107B0), (0x107B2, 0x107BA), (0x10800, 0x10805),
   (0x10808, 0x10808), (0x1080A, 0x10835), (0x10837, 0x10838), (0x1083C, 0x1083C),
   (0x1083F, 0x10855), (0x10857, 0x1089E), (0x108A7, 0x108AF), (0x108E0, 0x108F2),
   (0x108F4, 0x108F5), (0x108FB, 0x1091B), (0x1091F, 0x10939), (0x1093F, 0x10959),
   (0x10980, 0x109B7), (0x109BC, 0x109CF), (0x109D2, 0x10A03), (0x10A05, 0x10A06),
   (0x10A0C, 0x10A13), (0x10A15, 0x10A17), (0x10A19, 0x10A35), (0x10A38, 0x10A3A),
   (0x10A3F, 0x10A48), (0x10A50, 0x10A58), (0x10A60, 0x10A9F), (0x10AC0, 0x10AE6),
   (0x10AEB, 0x10AF6), (0x10B00, 0x10B35), (0x10B39, 0x10B55), (0x10B58, 0x10B72),
   (0x10B78, 0x10B91), (0x10B99, 0x10B9C), (0x10BA9, 0x10BAF), (0x10C00, 0x10C48),
   (0x10C80, 0x10CB2), (0x10CC0, 0x10CF2), (0x10CFA, 0x10D27), (0x10D30, 0x10D39),
   (0x10D40, 0x10D65), (0x10D69, 0x10D85), (0x10D8E, 0x10D8F), (0x10E60, 0x10E7E),
   (0x10E80, 0x10EA9), (0x10EAB, 0x10EAD), (0x10EB0, 0x10EB1), (0x10EC2, 0x10EC7),
   (0x10ED0, 0x10ED8), (0x10EFA, 0x10F27), (0x10F30, 0x10F59), (0x10F70, 0x10F89),
   (0x10FB0, 0x10FCB), (0x10FE0, 0x10FF6), (0x11000, 0x1104D), (0x11052, 0x11075),
   (0x1107F, 0x110BC), (0x110BE, 0x110C2), (0x110D0, 0x110E8), (0x110F0, 0x110F9),
   (0x11100, 0x11134), (0x11136, 0x11147), (0x11150, 0x11176), (0x11180, 0x111DF),
   (0x111E1, 0x111F4), (0x11200, 0x11211), (0x11213, 0x11241), (0x11280, 0x11286),
   (0x11288, 0x11288), (0x1128A, 0x1128D), (0x1128F, 0x1129D), (0x1129F, 0x112A9),
   (0x112B0, 0x112EA), (0x112F0, 0x112F9), (0x11300, 0x11303), (0x11305, 0x1130C),
   (0x1130F, 0x11310), (0x11313, 0x11328), (0x1132A, 0x11330), (0x11332, 0x11333),
   (0x11335, 0x11339), (0x1133B, 0x11344), (0x11347, 0x11348), (0x1134B, 0x1134D),
   (0x11350, 0x11350), (0x11357, 0x11357), (0x1135D, 0x11363), (0x11366, 0x1136C),
   (0x11370, 0x11374), (0x11380, 0x11389), (0x1138B, 0x1138B), (0x1138E, 0x1138E),
   (0x11390, 0x113B5), (0x113B7, 0x113C0), (0x113C2, 0x113C2), (0x113C5, 0x113C5),
   (0x113C7, 0x113CA), (0x113CC, 0x113D5), (0x113D7, 0x113D8), (0x113E1, 0x113E2),
   (0x11400, 0x1145B), (0x1145D, 0x11461), (0x11480, 0x114C7), (0x114D0, 0x114D9),
   (0x11580, 0x115B5), (0x115B8, 0x115DD), (0x11600, 0x11644), (0x11650, 0x11659),
   (0x11660, 0x1166C), (0x11680, 0x116B9), (0x116C0, 0x116C9), (0x116D0, 0x116E3),
   (0x11700, 0x1171A), (0x1171D, 0x1172B), (0x11730, 0x11746), (0x11800, 0x1183B),
   (0x118A0, 0x118F2), (0x118FF, 0x11906), (0x11909, 0x11909), (0x1190C, 0x11913),
   (0x11915, 0x11916), (0x11918, 0x11935), (0x11937, 0x11938), (0x1193B, 0x11946),
   (0x11950, 0x11959), (0x119A0, 0x119A7), (0x119AA, 0x119D7), (0x119DA, 0x119E4),
   (0x11A00, 0x11A47), (0x11A50, 0x11AA2), (0x11AB0, 0x11AF8), (0x11B00, 0x11B09),
   (0x11B60, 0x11B67), (0x11BC0, 0x11BE1), (0x11BF0, 0x11BF9), (0x11C00, 0x11C08),
   (0x11C0A, 0x11C36), (0x11C38, 0x11C45), (0x11C50, 0x11C6C), (0x11C70, 0x11C8F),
   (0x11C92, 0x11CA7), (0x11CA9, 0x11CB6), (0x11D00, 0x11D06), (0x11D08, 0x11D09),
   (0x11D0B, 0x11D36), (0x11D3A, 0x11D3A), (0x11D3C, 0x11D3D), (0x11D3F, 0x11D47),
   (0x11D50, 0x11D59), (0x11D60, 0x11D65), (0x11D67, 0x11D68), (0x11D6A, 0x11D8E),
   (0x11D90, 0x11D91), (0x11D93, 0x11D98), (0x11DA0, 0x11DA9), (0x11DB0, 0x11DDB),
   (0x11DE0, 0x11DE9), (0x11EE0, 0x11EF8), (0x11F00, 0x11F10), (0x11F12, 0x11F3A),
   (0x11F3E, 0x11F5A), (0x11FB0, 0x11FB0), (0x11FC0, 0x11FF1), (0x11FFF, 0x12399),
   (0x12400, 0x1246E), (0x12470, 0x12474), (0x12480, 0x12543), (0x12F90, 0x12FF2),
   (0x13000, 0x1342F), (0x13440, 0x13455), (0x13460, 0x143FA), (0x14400, 0x14646),
   (0x16100, 0x16139), (0x16800, 0x16A38), (0x16A40, 0x16A5E), (0x16A60, 0x16A69),
   (0x16A6E, 0x16ABE), (0x16AC0, 0x16AC9), (0x16AD0, 0x16AED), (0x16AF0, 0x16AF5),
   (0x16B00, 0x16B45), (0x16B50, 0x16B59), (0x16B5B, 0x16B61), (0x16B63, 0x16B77),
   (0x16B7D, 0x16B8F), (0x16D40, 0x16D79), (0x16E40, 0x16E9A), (0x16EA0, 0x16EB8),
   (0x16EBB, 0x16ED3), (0x16F00, 0x16F4A), (0x16F4F, 0x16F87), (0x16F8F, 0x16F9F),
   (0x16FE0, 0x16FE4), (0x16FF0, 0x16FF6), (0x17000, 0x18CD5), (0x18CFF, 0x18D1E),
   (0x18D80, 0x18DF2), (0x1AFF0, 0x1AFF3), (0x1AFF5, 0x1AFFB), (0x1AFFD, 0x1AFFE),
   (0x1B000, 0x1B122), (0x1B132, 0x1B132), (0x1B150, 0x1B152), (0x1B155, 0x1B155),
   (0x1B164, 0x1B167), (0x1B170, 0x1B2FB), (0x1BC00, 0x1BC6A), (0x1BC70, 0x1BC7C),
   (0x1BC80, 0x1BC88), (0x1BC90, 0x1BC99), (0x1BC9C, 0x1BC9F), (0x1CC00, 0x1CCFC),
   (0x1CD00, 0x1CEB3), (0x1CEBA, 0x1CED0), (0x1CEE0, 0x1CEF0), (0x1CF00, 0x1CF2D),
   (0x1CF30, 0x1CF46), (0x1CF50, 0x1CFC3), (0x1D000, 0x1D0F5), (0x1D100, 0x1D126),
   (0x1D129, 0x1D172), (0x1D17B, 0x1D1EA), (0x1D200, 0x1D245), (0x1D2C0, 0x1D2D3),
   (0x1D2E0, 0x1D2F3), (0x1D300, 0x1D356), (0x1D360, 0x1D378), (0x1D400, 0x1D454),
   (0x1D456, 0x1D49C), (0x1D49E, 0x1D49F), (0x1D4A2, 0x1D4A2), (0x1D4A5, 0x1D4A6),
   (0x1D4A9, 0x1D4AC), (0x1D4AE, 0x1D4B9), (0x1D4BB, 0x1D4BB), (0x1D4BD, 0x1D4C3),
   (0x1D4C5, 0x1D505), (0x1D507, 0x1D50A), (0x1D50D, 0x1D514), (0x1D516, 0x1D51C),
   (0x1D51E, 0x1D539), (0x1D53B, 0x1D53E), (0x1D540, 0x1D544), (0x1D546, 0x1D546),
   (0x1D54A, 0x1D550), (0x1D552, 0x1D6A5), (0x1D6A8, 0x1D7CB), (0x1D7CE, 0x1DA8B),
   (0x1DA9B, 0x1DA9F), (0x1DAA1, 0x1DAAF), (0x1DF00, 0x1DF1E), (0x1DF25, 0x1DF2A),
   (0x1E000, 0x1E006), (0x1E008, 0x1E018), (0x1E01B, 0x1E021), (0x1E023, 0x1E024),
   (0x1E026, 0x1E02A), (0x1E030, 0x1E06D), (0x1E08F, 0x1E08F), (0x1E100, 0x1E12C),
   (0x1E130, 0x1E13D), (0x1E140, 0x1E149), (0x1E14E, 0x1E14F), (0x1E290, 0x1E2AE),
   (0x1E2C0, 0x1E2F9), (0x1E2FF, 0x1E2FF), (0x1E4D0, 0x1E4F9), (0x1E5D0, 0x1E5FA),
   (0x1E5FF, 0x1E5FF), (0x1E6C0, 0x1E6DE), (0x1E6E0, 0x1E6F5), (0x1E6FE, 0x1E6FF),
   (0x1E7E0, 0x1E7E6), (0x1E7E8, 0x1E7EB), (0x1E7ED, 0x1E7EE), (0x1E7F0, 0x1E7FE),
   (0x1E800, 0x1E8C4), (0x1E8C7, 0x1E8D6), (0x1E900, 0x1E94B), (0x1E950, 0x1E959),
   (0x1E95E, 0x1E95F), (0x1EC71, 0x1ECB4), (0x1ED01, 0x1ED3D), (0x1EE00, 0x1EE03),
   (0x1EE05, 0x1EE1F), (0x1EE21, 0x1EE22), (0x1EE24, 0x1EE24), (0x1EE27, 0x1EE27),
   (0x1EE29, 0x1EE32), (0x1EE34, 0x1EE37), (0x1EE39, 0x1EE39), (0x1EE3B, 0x1EE3B),
   (0x1EE42, 0x1EE42), (0x1EE47, 0x1EE47), (0x1EE49, 0x1EE49), (0x1EE4B, 0x1EE4B),
   (0x1EE4D, 0x1EE4F), (0x1EE51, 0x1EE52), (0x1EE54, 0x1EE54), (0x1EE57, 0x1EE57),
   (0x1EE59, 0x1EE59), (0x1EE5B, 0x1EE5B), (0x1EE5D, 0x1EE5D), (0x1EE5F, 0x1EE5F),
   (0x1EE61, 0x1EE62), (0x1EE64, 0x1EE64), (0x1EE67, 0x1EE6A), (0x1EE6C, 0x1EE72),
   (0x1EE74, 0x1EE77), (0x1EE79, 0x1EE7C), (0x1EE7E, 0x1EE7E), (0x1EE80, 0x1EE89),
   (0x1EE8B, 0x1EE9B), (0x1EEA1, 0x1EEA3), (0x1EEA5, 0x1EEA9), (0x1EEAB, 0x1EEBB),
   (0x1EEF0, 0x1EEF1), (0x1F000, 0x1F02B), (0x1F030, 0x1F093), (0x1F0A0, 0x1F0AE),
   (0x1F0B1, 0x1F0BF), (0x1F0C1, 0x1F0CF), (0x1F0D1, 0x1F0F5), (0x1F101, 0x1F1AD),
   (0x1F1E6, 0x1F202), (0x1F210, 0x1F23B), (0x1F240, 0x1F248), (0x1F250, 0x1F251),
   (0x1F260, 0x1F265), (0x1F300, 0x1F6D8), (0x1F6DC, 0x1F6EC), (0x1F6F0, 0x1F6FC),
   (0x1F700, 0x1F7D9), (0x1F7E0, 0x1F7EB), (0x1F7F0, 0x1F7F0), (0x1F800, 0x1F80B),
   (0x1F810, 0x1F847), (0x1F850, 0x1F859), (0x1F860, 0x1F887), (0x1F890, 0x1F8AD),
   (0x1F8B0, 0x1F8BB), (0x1F8C0, 0x1F8C1), (0x1F8D0, 0x1F8D8), (0x1F900, 0x1FA57),
   (0x1FA60, 0x1FA6D), (0x1FA70, 0x1FA7C), (0x1FA80, 0x1FA8A), (0x1FA8E, 0x1FAC6),
   (0x1FAC8, 0x1FAC8), (0x1FACD, 0x1FADC), (0x1FADF, 0x1FAEA), (0x1FAEF, 0x1FAF8),
   (0x1FB00, 0x1FB92), (0x1FB94, 0x1FBFA), (0x20000, 0x2A6DF), (0x2A700, 0x2B81D),
   (0x2B820, 0x2CEAD), (0x2CEB0, 0x2EBE0), (0x2EBF0, 0x2EE5D), (0x2F800, 0x2FA1D),
   (0x30000, 0x3134A), (0x31350, 0x33479)]

/-- The small letter behind a capital letter. -/
def alternate? (point : Nat) : Option (List Nat) :=
  alternating.findSome? fun (first, last) =>
    if first ≤ point ∧ point ≤ last ∧ (point - first) % 2 = 0 then some [point + 1] else none

/-- The character at the same place of another row. -/
def shift? (point : Nat) : Option (List Nat) :=
  shifted.findSome? fun (first, last, target) =>
    if first ≤ point ∧ point ≤ last then some [target + (point - first)] else none

/-- The character that a character is replaced by, from rows of them. -/
def replaceIn? (rows : List (Nat × List Nat)) (point : Nat) : Option (List Nat) :=
  rows.findSome? fun (first, targets) =>
    if first ≤ point then (targets[point - first]?).map ([·]) else none

/-- The character that a character is replaced by. -/
def replace? (point : Nat) : Option (List Nat) :=
  (replaceIn? replacedLetters point).or
    ((replaceIn? replacedIdeographs point).or (replaceIn? replacedShapes point))

/-- The text that a character is spelled out as. -/
def spell? (point : Nat) : Option (List Nat) :=
  spelled.findSome? fun (first, texts) =>
    if first ≤ point then texts[point - first]? else none

/-- The other text that a character stands for, if it does. -/
def other? (point : Nat) : Option (List Nat) :=
  (alternate? point).or ((shift? point).or ((replace? point).or (spell? point)))

/-- What a character stands for in a domain; nothing, if it may not stand there. -/
def mapping? (c : Char) : Option (List Char) :=
  if c.toNat < 0x80 then some [c.toLower]
  else
    match other? c.toNat with
    | some points => some (points.map Char.ofNat)
    | none =>
      if inRanges ignoredRanges c then some []
      else if inRanges allowedRanges c then some [c]
      else none

/-- Whether a character stands for itself. -/
def isPlain (c : Char) : Bool := mapping? c == some [c]

end Domain

end Azsl
