import FlagScript.Text.CharSet

/-!
# Line breaking classes of characters

One set for each class. A character in none of them is a letter.
-/

namespace FlagScript.Text.LineBreak

/-- Ends of lines and paragraphs. -/
def mandatoryChars : CharSet := ⟨#[
  0xA, 0xE, 0x85, 0x86, 0x2028, 0x202A]⟩

/-- The space. -/
def spaceChars : CharSet := ⟨#[
  0x20, 0x21]⟩

/-- The space of no width. -/
def zeroSpaceChars : CharSet := ⟨#[
  0x200B, 0x200C]⟩

/-- Characters that forbid a break on both sides. -/
def wordJoinerChars : CharSet := ⟨#[
  0x2060, 0x2061, 0xFEFF, 0xFF00]⟩

/-- Blanks and marks that forbid a break on both sides. -/
def glueChars : CharSet := ⟨#[
  0xA0, 0xA1, 0x34F, 0x350, 0x35C, 0x363, 0xF08, 0xF09, 0xF0C, 0xF0D, 0xF12, 0xF13, 0xFD9, 0xFDB,
  0x180E, 0x180F, 0x1DCD, 0x1DCE, 0x1DFC, 0x1DFD, 0x2007, 0x2008, 0x2011, 0x2012, 0x202F, 0x2030,
  0x13430, 0x13437, 0x13439, 0x1343C, 0x16FE4, 0x16FE5]⟩

/-- Marks that attach to the character before them, and control characters. -/
def markChars : CharSet := ⟨#[
  0x0, 0x9, 0xE, 0x20, 0x7F, 0x85, 0x86, 0xA0, 0x300, 0x34F, 0x350, 0x35C, 0x363, 0x370, 0x483,
  0x48A, 0x591, 0x5BE, 0x5BF, 0x5C0, 0x5C1, 0x5C3, 0x5C4, 0x5C6, 0x5C7, 0x5C8, 0x610, 0x61B, 0x61C,
  0x61D, 0x64B, 0x660, 0x670, 0x671, 0x6D6, 0x6DD, 0x6DF, 0x6E5, 0x6E7, 0x6E9, 0x6EA, 0x6EE, 0x711,
  0x712, 0x730, 0x74B, 0x7A6, 0x7B1, 0x7EB, 0x7F4, 0x7FD, 0x7FE, 0x816, 0x81A, 0x81B, 0x824, 0x825,
  0x828, 0x829, 0x82E, 0x859, 0x85C, 0x898, 0x8A0, 0x8CA, 0x8E2, 0x8E3, 0x904, 0x93A, 0x93D, 0x93E,
  0x950, 0x951, 0x958, 0x962, 0x964, 0x981, 0x984, 0x9BC, 0x9BD, 0x9BE, 0x9C5, 0x9C7, 0x9C9, 0x9CB,
  0x9CE, 0x9D7, 0x9D8, 0x9E2, 0x9E4, 0x9FE, 0x9FF, 0xA01, 0xA04, 0xA3C, 0xA3D, 0xA3E, 0xA43, 0xA47,
  0xA49, 0xA4B, 0xA4E, 0xA51, 0xA52, 0xA70, 0xA72, 0xA75, 0xA76, 0xA81, 0xA84, 0xABC, 0xABD, 0xABE,
  0xAC6, 0xAC7, 0xACA, 0xACB, 0xACE, 0xAE2, 0xAE4, 0xAFA, 0xB00, 0xB01, 0xB04, 0xB3C, 0xB3D, 0xB3E,
  0xB45, 0xB47, 0xB49, 0xB4B, 0xB4E, 0xB55, 0xB58, 0xB62, 0xB64, 0xB82, 0xB83, 0xBBE, 0xBC3, 0xBC6,
  0xBC9, 0xBCA, 0xBCE, 0xBD7, 0xBD8, 0xC00, 0xC05, 0xC3C, 0xC3D, 0xC3E, 0xC45, 0xC46, 0xC49, 0xC4A,
  0xC4E, 0xC55, 0xC57, 0xC62, 0xC64, 0xC81, 0xC84, 0xCBC, 0xCBD, 0xCBE, 0xCC5, 0xCC6, 0xCC9, 0xCCA,
  0xCCE, 0xCD5, 0xCD7, 0xCE2, 0xCE4, 0xCF3, 0xCF4, 0xD00, 0xD04, 0xD3B, 0xD3D, 0xD3E, 0xD45, 0xD46,
  0xD49, 0xD4A, 0xD4E, 0xD57, 0xD58, 0xD62, 0xD64, 0xD81, 0xD84, 0xDCA, 0xDCB, 0xDCF, 0xDD5, 0xDD6,
  0xDD7, 0xDD8, 0xDE0, 0xDF2, 0xDF4, 0xE31, 0xE32, 0xE34, 0xE3B, 0xE47, 0xE4F, 0xEB1, 0xEB2, 0xEB4,
  0xEBD, 0xEC8, 0xECF, 0xF18, 0xF1A, 0xF35, 0xF36, 0xF37, 0xF38, 0xF39, 0xF3A, 0xF3E, 0xF40, 0xF71,
  0xF7F, 0xF80, 0xF85, 0xF86, 0xF88, 0xF8D, 0xF98, 0xF99, 0xFBD, 0xFC6, 0xFC7, 0x102B, 0x103F,
  0x1056, 0x105A, 0x105E, 0x1061, 0x1062, 0x1065, 0x1067, 0x106E, 0x1071, 0x1075, 0x1082, 0x108E,
  0x108F, 0x1090, 0x109A, 0x109E, 0x135D, 0x1360, 0x1712, 0x1716, 0x1732, 0x1735, 0x1752, 0x1754,
  0x1772, 0x1774, 0x17B4, 0x17D4, 0x17DD, 0x17DE, 0x180B, 0x180E, 0x180F, 0x1810, 0x1885, 0x1887,
  0x18A9, 0x18AA, 0x1920, 0x192C, 0x1930, 0x193C, 0x1A17, 0x1A1C, 0x1A55, 0x1A5F, 0x1A60, 0x1A7D,
  0x1A7F, 0x1A80, 0x1AB0, 0x1ACF, 0x1B00, 0x1B05, 0x1B34, 0x1B45, 0x1B6B, 0x1B74, 0x1B80, 0x1B83,
  0x1BA1, 0x1BAE, 0x1BE6, 0x1BF4, 0x1C24, 0x1C38, 0x1CD0, 0x1CD3, 0x1CD4, 0x1CE9, 0x1CED, 0x1CEE,
  0x1CF4, 0x1CF5, 0x1CF7, 0x1CFA, 0x1DC0, 0x1DCD, 0x1DCE, 0x1DFC, 0x1DFD, 0x1E00, 0x200C, 0x200D,
  0x200E, 0x2010, 0x202A, 0x202F, 0x2066, 0x2070, 0x20D0, 0x20F1, 0x2CEF, 0x2CF2, 0x2D7F, 0x2D80,
  0x2DE0, 0x2E00, 0x302A, 0x3030, 0x3035, 0x3036, 0x3099, 0x309B, 0xA66F, 0xA673, 0xA674, 0xA67E,
  0xA69E, 0xA6A0, 0xA6F0, 0xA6F2, 0xA802, 0xA803, 0xA806, 0xA807, 0xA80B, 0xA80C, 0xA823, 0xA828,
  0xA82C, 0xA82D, 0xA880, 0xA882, 0xA8B4, 0xA8C6, 0xA8E0, 0xA8F2, 0xA8FF, 0xA900, 0xA926, 0xA92E,
  0xA947, 0xA954, 0xA980, 0xA984, 0xA9B3, 0xA9C1, 0xA9E5, 0xA9E6, 0xAA29, 0xAA37, 0xAA43, 0xAA44,
  0xAA4C, 0xAA4E, 0xAA7B, 0xAA7E, 0xAAB0, 0xAAB1, 0xAAB2, 0xAAB5, 0xAAB7, 0xAAB9, 0xAABE, 0xAAC0,
  0xAAC1, 0xAAC2, 0xAAEB, 0xAAF0, 0xAAF5, 0xAAF7, 0xABE3, 0xABEB, 0xABEC, 0xABEE, 0xFB1E, 0xFB1F,
  0xFE00, 0xFE10, 0xFE20, 0xFE30, 0xFFF9, 0xFFFC, 0x101FD, 0x101FE, 0x102E0, 0x102E1, 0x10376,
  0x1037B, 0x10A01, 0x10A04, 0x10A05, 0x10A07, 0x10A0C, 0x10A10, 0x10A38, 0x10A3B, 0x10A3F, 0x10A40,
  0x10AE5, 0x10AE7, 0x10D24, 0x10D28, 0x10EAB, 0x10EAD, 0x10EFD, 0x10F00, 0x10F46, 0x10F51, 0x10F82,
  0x10F86, 0x11000, 0x11003, 0x11038, 0x11047, 0x11070, 0x11071, 0x11073, 0x11075, 0x1107F, 0x11083,
  0x110B0, 0x110BB, 0x110C2, 0x110C3, 0x11100, 0x11103, 0x11127, 0x11135, 0x11145, 0x11147, 0x11173,
  0x11174, 0x11180, 0x11183, 0x111B3, 0x111C1, 0x111C9, 0x111CD, 0x111CE, 0x111D0, 0x1122C, 0x11238,
  0x1123E, 0x1123F, 0x11241, 0x11242, 0x112DF, 0x112EB, 0x11300, 0x11304, 0x1133B, 0x1133D, 0x1133E,
  0x11345, 0x11347, 0x11349, 0x1134B, 0x1134E, 0x11357, 0x11358, 0x11362, 0x11364, 0x11366, 0x1136D,
  0x11370, 0x11375, 0x11435, 0x11447, 0x1145E, 0x1145F, 0x114B0, 0x114C4, 0x115AF, 0x115B6, 0x115B8,
  0x115C1, 0x115DC, 0x115DE, 0x11630, 0x11641, 0x116AB, 0x116B8, 0x1171D, 0x1172C, 0x1182C, 0x1183B,
  0x11930, 0x11936, 0x11937, 0x11939, 0x1193B, 0x1193F, 0x11940, 0x11941, 0x11942, 0x11944, 0x119D1,
  0x119D8, 0x119DA, 0x119E1, 0x119E4, 0x119E5, 0x11A01, 0x11A0B, 0x11A33, 0x11A3A, 0x11A3B, 0x11A3F,
  0x11A47, 0x11A48, 0x11A51, 0x11A5C, 0x11A8A, 0x11A9A, 0x11C2F, 0x11C37, 0x11C38, 0x11C40, 0x11C92,
  0x11CA8, 0x11CA9, 0x11CB7, 0x11D31, 0x11D37, 0x11D3A, 0x11D3B, 0x11D3C, 0x11D3E, 0x11D3F, 0x11D46,
  0x11D47, 0x11D48, 0x11D8A, 0x11D8F, 0x11D90, 0x11D92, 0x11D93, 0x11D98, 0x11EF3, 0x11EF7, 0x11F00,
  0x11F02, 0x11F03, 0x11F04, 0x11F34, 0x11F3B, 0x11F3E, 0x11F43, 0x13440, 0x13441, 0x13447, 0x13456,
  0x16AF0, 0x16AF5, 0x16B30, 0x16B37, 0x16F4F, 0x16F50, 0x16F51, 0x16F88, 0x16F8F, 0x16F93, 0x16FF0,
  0x16FF2, 0x1BC9D, 0x1BC9F, 0x1BCA0, 0x1BCA4, 0x1CF00, 0x1CF2E, 0x1CF30, 0x1CF47, 0x1D165, 0x1D16A,
  0x1D16D, 0x1D183, 0x1D185, 0x1D18C, 0x1D1AA, 0x1D1AE, 0x1D242, 0x1D245, 0x1DA00, 0x1DA37, 0x1DA3B,
  0x1DA6D, 0x1DA75, 0x1DA76, 0x1DA84, 0x1DA85, 0x1DA9B, 0x1DAA0, 0x1DAA1, 0x1DAB0, 0x1E000, 0x1E007,
  0x1E008, 0x1E019, 0x1E01B, 0x1E022, 0x1E023, 0x1E025, 0x1E026, 0x1E02B, 0x1E08F, 0x1E090, 0x1E130,
  0x1E137, 0x1E2AE, 0x1E2AF, 0x1E2EC, 0x1E2F0, 0x1E4EC, 0x1E4F0, 0x1E8D0, 0x1E8D7, 0x1E944, 0x1E94B,
  0xE0001, 0xE0002, 0xE0020, 0xE0080, 0xE0100, 0xE01F0]⟩

/-- The joiner of no width. -/
def joinerChars : CharSet := ⟨#[
  0x200D, 0x200E]⟩

/-- Opening punctuation. -/
def openingChars : CharSet := ⟨#[
  0x28, 0x29, 0x5B, 0x5C, 0x7B, 0x7C, 0xA1, 0xA2, 0xBF, 0xC0, 0xF3A, 0xF3B, 0xF3C, 0xF3D, 0x169B,
  0x169C, 0x201A, 0x201B, 0x201E, 0x201F, 0x2045, 0x2046, 0x207D, 0x207E, 0x208D, 0x208E, 0x2308,
  0x2309, 0x230A, 0x230B, 0x2329, 0x232A, 0x2768, 0x2769, 0x276A, 0x276B, 0x276C, 0x276D, 0x276E,
  0x276F, 0x2770, 0x2771, 0x2772, 0x2773, 0x2774, 0x2775, 0x27C5, 0x27C6, 0x27E6, 0x27E7, 0x27E8,
  0x27E9, 0x27EA, 0x27EB, 0x27EC, 0x27ED, 0x27EE, 0x27EF, 0x2983, 0x2984, 0x2985, 0x2986, 0x2987,
  0x2988, 0x2989, 0x298A, 0x298B, 0x298C, 0x298D, 0x298E, 0x298F, 0x2990, 0x2991, 0x2992, 0x2993,
  0x2994, 0x2995, 0x2996, 0x2997, 0x2998, 0x29D8, 0x29D9, 0x29DA, 0x29DB, 0x29FC, 0x29FD, 0x2E18,
  0x2E19, 0x2E22, 0x2E23, 0x2E24, 0x2E25, 0x2E26, 0x2E27, 0x2E28, 0x2E29, 0x2E42, 0x2E43, 0x2E55,
  0x2E56, 0x2E57, 0x2E58, 0x2E59, 0x2E5A, 0x2E5B, 0x2E5C, 0x3008, 0x3009, 0x300A, 0x300B, 0x300C,
  0x300D, 0x300E, 0x300F, 0x3010, 0x3011, 0x3014, 0x3015, 0x3016, 0x3017, 0x3018, 0x3019, 0x301A,
  0x301B, 0x301D, 0x301E, 0xFD3F, 0xFD40, 0xFE17, 0xFE18, 0xFE35, 0xFE36, 0xFE37, 0xFE38, 0xFE39,
  0xFE3A, 0xFE3B, 0xFE3C, 0xFE3D, 0xFE3E, 0xFE3F, 0xFE40, 0xFE41, 0xFE42, 0xFE43, 0xFE44, 0xFE47,
  0xFE48, 0xFE59, 0xFE5A, 0xFE5B, 0xFE5C, 0xFE5D, 0xFE5E, 0xFF08, 0xFF09, 0xFF3B, 0xFF3C, 0xFF5B,
  0xFF5C, 0xFF5F, 0xFF60, 0xFF62, 0xFF63, 0x13258, 0x1325B, 0x13286, 0x13287, 0x13288, 0x13289,
  0x13379, 0x1337A, 0x13437, 0x13438, 0x1343C, 0x1343D, 0x1343E, 0x1343F, 0x145CE, 0x145CF, 0x1E95E,
  0x1E960]⟩

/-- Closing punctuation. -/
def closingChars : CharSet := ⟨#[
  0x7D, 0x7E, 0xF3B, 0xF3C, 0xF3D, 0xF3E, 0x169C, 0x169D, 0x2046, 0x2047, 0x207E, 0x207F, 0x208E,
  0x208F, 0x2309, 0x230A, 0x230B, 0x230C, 0x232A, 0x232B, 0x2769, 0x276A, 0x276B, 0x276C, 0x276D,
  0x276E, 0x276F, 0x2770, 0x2771, 0x2772, 0x2773, 0x2774, 0x2775, 0x2776, 0x27C6, 0x27C7, 0x27E7,
  0x27E8, 0x27E9, 0x27EA, 0x27EB, 0x27EC, 0x27ED, 0x27EE, 0x27EF, 0x27F0, 0x2984, 0x2985, 0x2986,
  0x2987, 0x2988, 0x2989, 0x298A, 0x298B, 0x298C, 0x298D, 0x298E, 0x298F, 0x2990, 0x2991, 0x2992,
  0x2993, 0x2994, 0x2995, 0x2996, 0x2997, 0x2998, 0x2999, 0x29D9, 0x29DA, 0x29DB, 0x29DC, 0x29FD,
  0x29FE, 0x2E23, 0x2E24, 0x2E25, 0x2E26, 0x2E27, 0x2E28, 0x2E29, 0x2E2A, 0x2E56, 0x2E57, 0x2E58,
  0x2E59, 0x2E5A, 0x2E5B, 0x2E5C, 0x2E5D, 0x3001, 0x3003, 0x3009, 0x300A, 0x300B, 0x300C, 0x300D,
  0x300E, 0x300F, 0x3010, 0x3011, 0x3012, 0x3015, 0x3016, 0x3017, 0x3018, 0x3019, 0x301A, 0x301B,
  0x301C, 0x301E, 0x3020, 0xFD3E, 0xFD3F, 0xFE11, 0xFE13, 0xFE18, 0xFE19, 0xFE36, 0xFE37, 0xFE38,
  0xFE39, 0xFE3A, 0xFE3B, 0xFE3C, 0xFE3D, 0xFE3E, 0xFE3F, 0xFE40, 0xFE41, 0xFE42, 0xFE43, 0xFE44,
  0xFE45, 0xFE48, 0xFE49, 0xFE50, 0xFE51, 0xFE52, 0xFE53, 0xFE5A, 0xFE5B, 0xFE5C, 0xFE5D, 0xFE5E,
  0xFE5F, 0xFF09, 0xFF0A, 0xFF0C, 0xFF0D, 0xFF0E, 0xFF0F, 0xFF3D, 0xFF3E, 0xFF5D, 0xFF5E, 0xFF60,
  0xFF62, 0xFF63, 0xFF65, 0x1325B, 0x1325E, 0x13282, 0x13283, 0x13287, 0x13288, 0x13289, 0x1328A,
  0x1337A, 0x1337C, 0x13438, 0x13439, 0x1343D, 0x1343E, 0x1343F, 0x13440, 0x145CF, 0x145D0]⟩

/-- The closing parenthesis and bracket. -/
def closingParenChars : CharSet := ⟨#[
  0x29, 0x2A, 0x5D, 0x5E]⟩

/-- Quotation marks. -/
def quoteChars : CharSet := ⟨#[
  0x22, 0x23, 0x27, 0x28, 0xAB, 0xAC, 0xBB, 0xBC, 0x2018, 0x201A, 0x201B, 0x201E, 0x201F, 0x2020,
  0x2039, 0x203B, 0x275B, 0x2761, 0x2E00, 0x2E0E, 0x2E1C, 0x2E1E, 0x2E20, 0x2E22, 0x1F676, 0x1F679]⟩

/-- Exclamation and question marks and their like. -/
def exclamationChars : CharSet := ⟨#[
  0x21, 0x22, 0x3F, 0x40, 0x5C6, 0x5C7, 0x61B, 0x61C, 0x61D, 0x620, 0x6D4, 0x6D5, 0x7F9, 0x7FA,
  0xF0D, 0xF12, 0xF14, 0xF15, 0x1802, 0x1804, 0x1808, 0x180A, 0x1944, 0x1946, 0x2762, 0x2764,
  0x2CF9, 0x2CFA, 0x2CFE, 0x2CFF, 0x2E2E, 0x2E2F, 0x2E53, 0x2E55, 0xA60E, 0xA60F, 0xA876, 0xA878,
  0xFE15, 0xFE17, 0xFE56, 0xFE58, 0xFF01, 0xFF02, 0xFF1F, 0xFF20, 0x115C4, 0x115C6, 0x11C71, 0x11C72]⟩

/-- The slash. -/
def slashChars : CharSet := ⟨#[
  0x2F, 0x30]⟩

/-- Separators within numbers. -/
def infixSeparatorChars : CharSet := ⟨#[
  0x2C, 0x2D, 0x2E, 0x2F, 0x3A, 0x3C, 0x37E, 0x37F, 0x589, 0x58A, 0x60C, 0x60E, 0x7F8, 0x7F9,
  0x2044, 0x2045, 0xFE10, 0xFE11, 0xFE13, 0xFE15]⟩

/-- Characters that do not begin a line. -/
def nonStarterChars : CharSet := ⟨#[
  0x17D6, 0x17D7, 0x203C, 0x203E, 0x2047, 0x204A, 0x3005, 0x3006, 0x301C, 0x301D, 0x303B, 0x303D,
  0x3041, 0x3042, 0x3043, 0x3044, 0x3045, 0x3046, 0x3047, 0x3048, 0x3049, 0x304A, 0x3063, 0x3064,
  0x3083, 0x3084, 0x3085, 0x3086, 0x3087, 0x3088, 0x308E, 0x308F, 0x3095, 0x3097, 0x309B, 0x309F,
  0x30A0, 0x30A2, 0x30A3, 0x30A4, 0x30A5, 0x30A6, 0x30A7, 0x30A8, 0x30A9, 0x30AA, 0x30C3, 0x30C4,
  0x30E3, 0x30E4, 0x30E5, 0x30E6, 0x30E7, 0x30E8, 0x30EE, 0x30EF, 0x30F5, 0x30F7, 0x30FB, 0x30FF,
  0x31F0, 0x3200, 0xA015, 0xA016, 0xFE54, 0xFE56, 0xFF1A, 0xFF1C, 0xFF65, 0xFF66, 0xFF67, 0xFF71,
  0xFF9E, 0xFFA0, 0x16FE0, 0x16FE4, 0x1B132, 0x1B133, 0x1B150, 0x1B153, 0x1B155, 0x1B156, 0x1B164,
  0x1B168, 0x1F679, 0x1F67C]⟩

/-- Characters after which a line may end: tab, hyphens, dashes, visible separators. -/
def breakAfterChars : CharSet := ⟨#[
  0x9, 0xA, 0x7C, 0x7D, 0xAD, 0xAE, 0x58A, 0x58B, 0x5BE, 0x5BF, 0x964, 0x966, 0xE5A, 0xE5C, 0xF0B,
  0xF0C, 0xF34, 0xF35, 0xF7F, 0xF80, 0xF85, 0xF86, 0xFBE, 0xFC0, 0xFD2, 0xFD3, 0x104A, 0x104C,
  0x1361, 0x1362, 0x1400, 0x1401, 0x1680, 0x1681, 0x16EB, 0x16EE, 0x1735, 0x1737, 0x17D4, 0x17D6,
  0x17D8, 0x17D9, 0x17DA, 0x17DB, 0x1804, 0x1806, 0x1B5A, 0x1B5C, 0x1B5D, 0x1B61, 0x1B7D, 0x1B7F,
  0x1C3B, 0x1C40, 0x1C7E, 0x1C80, 0x2000, 0x2007, 0x2008, 0x200B, 0x2010, 0x2011, 0x2012, 0x2014,
  0x2027, 0x2028, 0x2056, 0x2057, 0x2058, 0x205C, 0x205D, 0x2060, 0x2CFA, 0x2CFD, 0x2CFF, 0x2D00,
  0x2D70, 0x2D71, 0x2E0E, 0x2E16, 0x2E17, 0x2E18, 0x2E19, 0x2E1A, 0x2E2A, 0x2E2E, 0x2E30, 0x2E32,
  0x2E33, 0x2E35, 0x2E3C, 0x2E3F, 0x2E40, 0x2E42, 0x2E43, 0x2E4B, 0x2E4C, 0x2E4D, 0x2E4E, 0x2E50,
  0x2E5D, 0x2E5E, 0x3000, 0x3001, 0xA4FE, 0xA500, 0xA60D, 0xA60E, 0xA60F, 0xA610, 0xA6F3, 0xA6F8,
  0xA8CE, 0xA8D0, 0xA92E, 0xA930, 0xA9C7, 0xA9CA, 0xAA5D, 0xAA60, 0xAAF0, 0xAAF2, 0xABEB, 0xABEC,
  0x10100, 0x10103, 0x1039F, 0x103A0, 0x103D0, 0x103D1, 0x10857, 0x10858, 0x1091F, 0x10920, 0x10A50,
  0x10A58, 0x10AF0, 0x10AF6, 0x10B39, 0x10B40, 0x10EAD, 0x10EAE, 0x11047, 0x11049, 0x110BE, 0x110C2,
  0x11140, 0x11144, 0x111C5, 0x111C7, 0x111C8, 0x111C9, 0x111DD, 0x111E0, 0x11238, 0x1123A, 0x1123B,
  0x1123D, 0x112A9, 0x112AA, 0x1144B, 0x1144F, 0x1145A, 0x1145C, 0x115C2, 0x115C4, 0x115C9, 0x115D8,
  0x11641, 0x11643, 0x1173C, 0x1173F, 0x11944, 0x11947, 0x11A41, 0x11A45, 0x11A9A, 0x11A9D, 0x11AA1,
  0x11AA3, 0x11C41, 0x11C46, 0x11F43, 0x11F45, 0x11FFF, 0x12000, 0x12470, 0x12475, 0x16A6E, 0x16A70,
  0x16AF5, 0x16AF6, 0x16B37, 0x16B3A, 0x16B44, 0x16B45, 0x16E97, 0x16E99, 0x1BC9F, 0x1BCA0, 0x1DA87,
  0x1DA8B]⟩

/-- Characters before which a line may end. -/
def breakBeforeChars : CharSet := ⟨#[
  0xB4, 0xB5, 0x2C8, 0x2C9, 0x2CC, 0x2CD, 0x2DF, 0x2E0, 0xC77, 0xC78, 0xC84, 0xC85, 0xF01, 0xF05,
  0xF06, 0xF08, 0xF09, 0xF0B, 0xFD0, 0xFD2, 0xFD3, 0xFD4, 0x1806, 0x1807, 0x1FFD, 0x1FFE, 0xA874,
  0xA876, 0xA8FC, 0xA8FD, 0x11175, 0x11176, 0x111DB, 0x111DC, 0x115C1, 0x115C2, 0x11660, 0x1166D,
  0x119E2, 0x119E3, 0x11A3F, 0x11A40, 0x11A45, 0x11A46, 0x11A9E, 0x11AA1, 0x11B00, 0x11B0A, 0x11C70,
  0x11C71]⟩

/-- Dashes that break on both sides. -/
def breakBothChars : CharSet := ⟨#[
  0x2014, 0x2015, 0x2E3A, 0x2E3C]⟩

/-- The hyphen of the keyboard. -/
def hyphenChars : CharSet := ⟨#[
  0x2D, 0x2E]⟩

/-- The place of an object. -/
def contingentChars : CharSet := ⟨#[
  0xFFFC, 0xFFFD]⟩

/-- Leaders. -/
def inseparableChars : CharSet := ⟨#[
  0x2024, 0x2027, 0x22EF, 0x22F0, 0xFE19, 0xFE1A, 0x10AF6, 0x10AF7]⟩

/-- Digits. -/
def digitChars : CharSet := ⟨#[
  0x30, 0x3A, 0x660, 0x66A, 0x66B, 0x66D, 0x6F0, 0x6FA, 0x7C0, 0x7CA, 0x966, 0x970, 0x9E6, 0x9F0,
  0xA66, 0xA70, 0xAE6, 0xAF0, 0xB66, 0xB70, 0xBE6, 0xBF0, 0xC66, 0xC70, 0xCE6, 0xCF0, 0xD66, 0xD70,
  0xDE6, 0xDF0, 0xE50, 0xE5A, 0xED0, 0xEDA, 0xF20, 0xF2A, 0x1040, 0x104A, 0x1090, 0x109A, 0x17E0,
  0x17EA, 0x1810, 0x181A, 0x1946, 0x1950, 0x19D0, 0x19DA, 0x1A80, 0x1A8A, 0x1A90, 0x1A9A, 0x1B50,
  0x1B5A, 0x1BB0, 0x1BBA, 0x1C40, 0x1C4A, 0x1C50, 0x1C5A, 0xA620, 0xA62A, 0xA8D0, 0xA8DA, 0xA900,
  0xA90A, 0xA9D0, 0xA9DA, 0xA9F0, 0xA9FA, 0xAA50, 0xAA5A, 0xABF0, 0xABFA, 0x104A0, 0x104AA, 0x10D30,
  0x10D3A, 0x11066, 0x11070, 0x110F0, 0x110FA, 0x11136, 0x11140, 0x111D0, 0x111DA, 0x112F0, 0x112FA,
  0x11450, 0x1145A, 0x114D0, 0x114DA, 0x11650, 0x1165A, 0x116C0, 0x116CA, 0x11730, 0x1173A, 0x118E0,
  0x118EA, 0x11950, 0x1195A, 0x11C50, 0x11C5A, 0x11D50, 0x11D5A, 0x11DA0, 0x11DAA, 0x11F50, 0x11F5A,
  0x16A60, 0x16A6A, 0x16AC0, 0x16ACA, 0x16B50, 0x16B5A, 0x1D7CE, 0x1D800, 0x1E140, 0x1E14A, 0x1E2F0,
  0x1E2FA, 0x1E4F0, 0x1E4FA, 0x1E950, 0x1E95A, 0x1FBF0, 0x1FBFA]⟩

/-- Signs in front of a number. -/
def numberPrefixChars : CharSet := ⟨#[
  0x24, 0x25, 0x2B, 0x2C, 0x5C, 0x5D, 0xA3, 0xA6, 0xB1, 0xB2, 0x58F, 0x590, 0x7FE, 0x800, 0x9FB,
  0x9FC, 0xAF1, 0xAF2, 0xBF9, 0xBFA, 0xE3F, 0xE40, 0x17DB, 0x17DC, 0x20A0, 0x20A7, 0x20A8, 0x20B6,
  0x20B7, 0x20BB, 0x20BC, 0x20BE, 0x20BF, 0x20C0, 0x20C1, 0x20D0, 0x2116, 0x2117, 0x2212, 0x2214,
  0xFE69, 0xFE6A, 0xFF04, 0xFF05, 0xFFE1, 0xFFE2, 0xFFE5, 0xFFE7, 0x1E2FF, 0x1E300]⟩

/-- Signs behind a number. -/
def numberSuffixChars : CharSet := ⟨#[
  0x25, 0x26, 0xA2, 0xA3, 0xB0, 0xB1, 0x609, 0x60C, 0x66A, 0x66B, 0x9F2, 0x9F4, 0x9F9, 0x9FA, 0xD79,
  0xD7A, 0x2030, 0x2038, 0x2057, 0x2058, 0x20A7, 0x20A8, 0x20B6, 0x20B7, 0x20BB, 0x20BC, 0x20BE,
  0x20BF, 0x20C0, 0x20C1, 0x2103, 0x2104, 0x2109, 0x210A, 0xA838, 0xA839, 0xFDFC, 0xFDFD, 0xFE6A,
  0xFE6B, 0xFF05, 0xFF06, 0xFFE0, 0xFFE1, 0x11FDD, 0x11FE1, 0x1ECAC, 0x1ECAD, 0x1ECB0, 0x1ECB1]⟩

/-- Letters of the Hebrew script. -/
def hebrewLetterChars : CharSet := ⟨#[
  0x5D0, 0x5EB, 0x5EF, 0x5F3, 0xFB1D, 0xFB1E, 0xFB1F, 0xFB29, 0xFB2A, 0xFB37, 0xFB38, 0xFB3D,
  0xFB3E, 0xFB3F, 0xFB40, 0xFB42, 0xFB43, 0xFB45, 0xFB46, 0xFB50]⟩

/-- Ideographs and other characters that break on both sides. -/
def ideographChars : CharSet := ⟨#[
  0x231A, 0x231C, 0x23F0, 0x23F4, 0x2600, 0x2604, 0x2614, 0x2616, 0x2618, 0x2619, 0x261A, 0x261D,
  0x261E, 0x2620, 0x2639, 0x263C, 0x2668, 0x2669, 0x267F, 0x2680, 0x26BD, 0x26C9, 0x26CD, 0x26CE,
  0x26CF, 0x26D2, 0x26D3, 0x26D5, 0x26D8, 0x26DA, 0x26DC, 0x26DD, 0x26DF, 0x26E2, 0x26EA, 0x26EB,
  0x26F1, 0x26F6, 0x26F7, 0x26F9, 0x26FA, 0x26FB, 0x26FD, 0x2705, 0x2708, 0x270A, 0x2764, 0x2765,
  0x2E80, 0x2E9A, 0x2E9B, 0x2EF4, 0x2F00, 0x2FD6, 0x2FF0, 0x2FFC, 0x3003, 0x3005, 0x3006, 0x3008,
  0x3012, 0x3014, 0x3020, 0x302A, 0x3030, 0x3035, 0x3036, 0x303B, 0x303D, 0x3040, 0x3042, 0x3043,
  0x3044, 0x3045, 0x3046, 0x3047, 0x3048, 0x3049, 0x304A, 0x3063, 0x3064, 0x3083, 0x3084, 0x3085,
  0x3086, 0x3087, 0x3088, 0x308E, 0x308F, 0x3095, 0x309F, 0x30A0, 0x30A2, 0x30A3, 0x30A4, 0x30A5,
  0x30A6, 0x30A7, 0x30A8, 0x30A9, 0x30AA, 0x30C3, 0x30C4, 0x30E3, 0x30E4, 0x30E5, 0x30E6, 0x30E7,
  0x30E8, 0x30EE, 0x30EF, 0x30F5, 0x30F7, 0x30FB, 0x30FF, 0x3100, 0x3105, 0x3130, 0x3131, 0x318F,
  0x3190, 0x31E4, 0x3200, 0x321F, 0x3220, 0x3248, 0x3250, 0x4DC0, 0x4E00, 0xA015, 0xA016, 0xA48D,
  0xA490, 0xA4C7, 0xF900, 0xFB00, 0xFE30, 0xFE35, 0xFE45, 0xFE47, 0xFE49, 0xFE50, 0xFE51, 0xFE52,
  0xFE58, 0xFE59, 0xFE5F, 0xFE67, 0xFE68, 0xFE69, 0xFE6B, 0xFE6C, 0xFF02, 0xFF04, 0xFF06, 0xFF08,
  0xFF0A, 0xFF0C, 0xFF0D, 0xFF0E, 0xFF0F, 0xFF1A, 0xFF1C, 0xFF1F, 0xFF20, 0xFF3B, 0xFF3C, 0xFF3D,
  0xFF3E, 0xFF5B, 0xFF5C, 0xFF5D, 0xFF5E, 0xFF5F, 0xFF66, 0xFF67, 0xFF71, 0xFF9E, 0xFFA0, 0xFFBF,
  0xFFC2, 0xFFC8, 0xFFCA, 0xFFD0, 0xFFD2, 0xFFD8, 0xFFDA, 0xFFDD, 0xFFE2, 0xFFE5, 0x11F45, 0x11F50,
  0x17000, 0x187F8, 0x18800, 0x18B00, 0x18D00, 0x18D09, 0x1B000, 0x1B123, 0x1B170, 0x1B2FC, 0x1F000,
  0x1F100, 0x1F10D, 0x1F110, 0x1F16D, 0x1F170, 0x1F1AD, 0x1F1E6, 0x1F200, 0x1F385, 0x1F386, 0x1F39C,
  0x1F39E, 0x1F3B5, 0x1F3B7, 0x1F3BC, 0x1F3BD, 0x1F3C2, 0x1F3C5, 0x1F3C7, 0x1F3C8, 0x1F3CA, 0x1F3CD,
  0x1F3FB, 0x1F400, 0x1F442, 0x1F444, 0x1F446, 0x1F451, 0x1F466, 0x1F479, 0x1F47C, 0x1F47D, 0x1F481,
  0x1F484, 0x1F485, 0x1F488, 0x1F48F, 0x1F490, 0x1F491, 0x1F492, 0x1F4A0, 0x1F4A1, 0x1F4A2, 0x1F4A3,
  0x1F4A4, 0x1F4A5, 0x1F4AA, 0x1F4AB, 0x1F4AF, 0x1F4B0, 0x1F4B1, 0x1F4B3, 0x1F500, 0x1F507, 0x1F517,
  0x1F525, 0x1F532, 0x1F54A, 0x1F574, 0x1F576, 0x1F57A, 0x1F57B, 0x1F590, 0x1F591, 0x1F595, 0x1F597,
  0x1F5D4, 0x1F5DC, 0x1F5F4, 0x1F5FA, 0x1F645, 0x1F648, 0x1F64B, 0x1F680, 0x1F6A3, 0x1F6A4, 0x1F6B4,
  0x1F6B7, 0x1F6C0, 0x1F6C1, 0x1F6CC, 0x1F6CD, 0x1F700, 0x1F774, 0x1F780, 0x1F7D5, 0x1F800, 0x1F80C,
  0x1F810, 0x1F848, 0x1F850, 0x1F85A, 0x1F860, 0x1F888, 0x1F890, 0x1F8AE, 0x1F900, 0x1F90D, 0x1F90F,
  0x1F910, 0x1F918, 0x1F920, 0x1F926, 0x1F927, 0x1F930, 0x1F93A, 0x1F93C, 0x1F93F, 0x1F977, 0x1F978,
  0x1F9B5, 0x1F9B7, 0x1F9B8, 0x1F9BA, 0x1F9BB, 0x1F9BC, 0x1F9CD, 0x1F9D0, 0x1F9D1, 0x1F9DE, 0x1FA00,
  0x1FA54, 0x1FAC3, 0x1FAC6, 0x1FAF0, 0x1FAF9, 0x1FB00, 0x1FC00, 0x1FFFE, 0x20000, 0x2FFFE, 0x30000,
  0x3FFFE]⟩

/-- Leading consonants of conjoining syllables. -/
def leadingJamoChars : CharSet := ⟨#[
  0x1100, 0x1160, 0xA960, 0xA97D]⟩

/-- Vowels of conjoining syllables. -/
def vowelJamoChars : CharSet := ⟨#[
  0x1160, 0x11A8, 0xD7B0, 0xD7C7]⟩

/-- Final consonants of conjoining syllables. -/
def trailingJamoChars : CharSet := ⟨#[
  0x11A8, 0x1200, 0xD7CB, 0xD7FC]⟩

/-- Composed syllables. -/
def syllableChars : CharSet := ⟨#[
  0xAC00, 0xD7A4]⟩

/-- Letters of flags. -/
def regionalChars : CharSet := ⟨#[
  0x1F1E6, 0x1F200]⟩

/-- Pictographs that take a modifier. -/
def emojiBaseChars : CharSet := ⟨#[
  0x261D, 0x261E, 0x26F9, 0x26FA, 0x270A, 0x270E, 0x1F385, 0x1F386, 0x1F3C2, 0x1F3C5, 0x1F3C7,
  0x1F3C8, 0x1F3CA, 0x1F3CD, 0x1F442, 0x1F444, 0x1F446, 0x1F451, 0x1F466, 0x1F479, 0x1F47C, 0x1F47D,
  0x1F481, 0x1F484, 0x1F485, 0x1F488, 0x1F48F, 0x1F490, 0x1F491, 0x1F492, 0x1F4AA, 0x1F4AB, 0x1F574,
  0x1F576, 0x1F57A, 0x1F57B, 0x1F590, 0x1F591, 0x1F595, 0x1F597, 0x1F645, 0x1F648, 0x1F64B, 0x1F650,
  0x1F6A3, 0x1F6A4, 0x1F6B4, 0x1F6B7, 0x1F6C0, 0x1F6C1, 0x1F6CC, 0x1F6CD, 0x1F90C, 0x1F90D, 0x1F90F,
  0x1F910, 0x1F918, 0x1F920, 0x1F926, 0x1F927, 0x1F930, 0x1F93A, 0x1F93C, 0x1F93F, 0x1F977, 0x1F978,
  0x1F9B5, 0x1F9B7, 0x1F9B8, 0x1F9BA, 0x1F9BB, 0x1F9BC, 0x1F9CD, 0x1F9D0, 0x1F9D1, 0x1F9DE, 0x1FAC3,
  0x1FAC6, 0x1FAF0, 0x1FAF9]⟩

/-- Modifiers of pictographs. -/
def emojiModifierChars : CharSet := ⟨#[
  0x1F3FB, 0x1F400]⟩

/-! ### Finer properties -/

/-- Quotation marks that open a quotation. -/
def initialQuotes : CharSet := ⟨#[
  0xAB, 0xAC, 0x2018, 0x2019, 0x201B, 0x201D, 0x201F, 0x2020, 0x2039, 0x203A, 0x2E02, 0x2E03,
  0x2E04, 0x2E05, 0x2E09, 0x2E0A, 0x2E0C, 0x2E0D, 0x2E1C, 0x2E1D, 0x2E20, 0x2E21]⟩

/-- Quotation marks that close a quotation. -/
def finalQuotes : CharSet := ⟨#[
  0xBB, 0xBC, 0x2019, 0x201A, 0x201D, 0x201E, 0x203A, 0x203B, 0x2E03, 0x2E04, 0x2E05, 0x2E06,
  0x2E0A, 0x2E0B, 0x2E0D, 0x2E0E, 0x2E1D, 0x2E1E, 0x2E21, 0x2E22]⟩

/-- Places kept for pictographs to come. -/
def futurePictographs : CharSet := ⟨#[
  0x1F02C, 0x1F030, 0x1F094, 0x1F0A0, 0x1F0AF, 0x1F0B1, 0x1F0C0, 0x1F0C1, 0x1F0D0, 0x1F0D1, 0x1F0F6,
  0x1F100, 0x1F1AE, 0x1F1E6, 0x1F203, 0x1F210, 0x1F23C, 0x1F240, 0x1F249, 0x1F250, 0x1F252, 0x1F260,
  0x1F266, 0x1F300, 0x1F6D9, 0x1F6DC, 0x1F6ED, 0x1F6F0, 0x1F6FD, 0x1F700, 0x1F7DA, 0x1F7E0, 0x1F7EC,
  0x1F7F0, 0x1F7F1, 0x1F800, 0x1F80C, 0x1F810, 0x1F848, 0x1F850, 0x1F85A, 0x1F860, 0x1F888, 0x1F890,
  0x1F8AE, 0x1F8B0, 0x1F8BC, 0x1F8C0, 0x1F8C2, 0x1F8D0, 0x1F8D9, 0x1F900, 0x1FA58, 0x1FA60, 0x1FA6E,
  0x1FA70, 0x1FA7D, 0x1FA80, 0x1FA8B, 0x1FA8E, 0x1FAC7, 0x1FAC8, 0x1FAC9, 0x1FACD, 0x1FADD, 0x1FADF,
  0x1FAEB, 0x1FAEF, 0x1FAF9, 0x1FB00, 0x1FC00, 0x1FFFE]⟩

/-- Halfwidth forms of East Asian characters. -/
def halfWidth : CharSet := ⟨#[
  0x20A9, 0x20AA, 0xFF61, 0xFFDD, 0xFFE8, 0xFFEF]⟩

end FlagScript.Text.LineBreak
