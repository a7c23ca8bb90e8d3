import Flowgen.Text.Ranges

namespace Flowgen.Text

/-!
# Case of letters in Unicode 14 beyond ASCII

Full case mappings: most map one character to one, written as runs, and a few
map one character to several.  The two ranges at the end decide the form of a
lower-case sigma.
-/

/-- The characters from `first` to `last`, in steps, map `offset` further. -/
structure CaseRun where
  first : Nat
  last : Nat
  step : Nat
  offset : Int

/-- The runs in lines of a table, for each step and offset. -/
def runsIn (table : List (Nat × Int × List String)) : List CaseRun :=
  table.flatMap fun (step, offset, lines) =>
    (rangesIn lines).map fun (first, last) => ⟨first, last, step, offset⟩

/-- Lower case of single characters beyond ASCII. -/
def lowerRuns : List CaseRun :=
  runsIn [
    (1, 32, ["C0-D6 D8-E 391-A1 3A3-B 410-2F FF21-3A 118A0-BF 16E40-5F"]),
    (2, 1, ["100-2E 132-6 139-47 14A-76 179-D 182-4 1A0-4 1B3-5 1CB-DB",
      "1DE-EE 1F2-4 1F8-21E 222-32 246-E 370-2 3D8-EE 460-80 48A-BE 4C1-D",
      "4D0-52E 1E00-94 1EA0-FE 2C67-B 2C80-E2 2CEB-D A640-6C A680-9A A722-E",
      "A732-6E A779-B A77E-86 A790-2 A796-A8 A7B4-C2 A7C7-9 A7D6-8"]),
    (1, -121, ["178"]), (1, 210, ["181"]), (1, 206, ["186"]),
    (1, 1, ["187 18B 191 198 1A7 1AC 1AF 1B8 1BC 1C5 1C8 23B 241 376 3F7",
      "3FA 2183 2C60 2C72 2C75 2CF2 A78B A7D0 A7F5"]),
    (1, 205, ["189-A 193"]), (1, 79, ["18E"]), (1, 202, ["18F"]),
    (1, 203, ["190"]), (1, 207, ["194"]), (1, 211, ["196 19C"]),
    (1, 209, ["197"]), (1, 213, ["19D"]), (1, 214, ["19F"]),
    (1, 218, ["1A6 1A9 1AE"]), (1, 217, ["1B1-2"]), (1, 219, ["1B7"]),
    (1, 2, ["1C4 1C7 1CA 1F1"]), (1, -97, ["1F6"]), (1, -56, ["1F7"]),
    (1, -130, ["220 3FD-F"]), (1, 10795, ["23A"]), (1, -163, ["23D"]),
    (1, 10792, ["23E"]), (1, -195, ["243"]), (1, 69, ["244"]),
    (1, 71, ["245"]), (1, 116, ["37F"]), (1, 38, ["386"]), (1, 37, ["388-A"]),
    (1, 64, ["38C 10C80-B2"]), (1, 63, ["38E-F"]), (1, 8, ["3CF 13F0-5"]),
    (1, -60, ["3F4"]), (1, -7, ["3F9 1FEC"]), (1, 80, ["400-F"]),
    (1, 15, ["4C0"]), (1, 48, ["531-56 2C00-2F"]),
    (1, 7264, ["10A0-C5 10C7 10CD"]), (1, 38864, ["13A0-EF"]),
    (1, -3008, ["1C90-BA 1CBD-F"]), (1, -7615, ["1E9E"]),
    (1, -8, ["1F08-F 1F18-D 1F28-F 1F38-F 1F48-D 1F68-F 1F88-F 1F98-F",
      "1FA8-F 1FB8-9 1FD8-9 1FE8-9"]),
    (2, -8, ["1F59-F"]), (1, -74, ["1FBA-B"]), (1, -9, ["1FBC 1FCC 1FFC"]),
    (1, -86, ["1FC8-B"]), (1, -100, ["1FDA-B"]), (1, -112, ["1FEA-B"]),
    (1, -128, ["1FF8-9"]), (1, -126, ["1FFA-B"]), (1, -7517, ["2126"]),
    (1, -8383, ["212A"]), (1, -8262, ["212B"]), (1, 28, ["2132"]),
    (1, 16, ["2160-F"]), (1, 26, ["24B6-CF"]), (1, -10743, ["2C62"]),
    (1, -3814, ["2C63"]), (1, -10727, ["2C64"]), (1, -10780, ["2C6D"]),
    (1, -10749, ["2C6E"]), (1, -10783, ["2C6F"]), (1, -10782, ["2C70"]),
    (1, -10815, ["2C7E-F"]), (1, -35332, ["A77D"]), (1, -42280, ["A78D"]),
    (1, -42308, ["A7AA A7AE"]), (1, -42319, ["A7AB"]), (1, -42315, ["A7AC"]),
    (1, -42305, ["A7AD"]), (1, -42258, ["A7B0"]), (1, -42282, ["A7B1"]),
    (1, -42261, ["A7B2"]), (1, 928, ["A7B3"]), (1, -48, ["A7C4"]),
    (1, -42307, ["A7C5"]), (1, -35384, ["A7C6"]),
    (1, 40, ["10400-27 104B0-D3"]),
    (1, 39, ["10570-A 1057C-8A 1058C-92 10594-5"]), (1, 34, ["1E900-21"])]

/-- The run that undoes another. -/
def CaseRun.back (run : CaseRun) : CaseRun where
  first := (run.first + run.offset).toNat
  last := (run.last + run.offset).toNat
  step := run.step
  offset := -run.offset

/--
Title case of single characters beyond ASCII: some have one of their own, and
the others undo the first run to lower case that ends at them.
-/
def titleRuns : List CaseRun :=
  runsIn [
    (1, 743, ["B5"]), (1, -232, ["131"]), (1, -300, ["17F"]),
    (1, 1, ["1C4 1C7 1CA 1F1"]), (1, 84, ["345"]), (1, -31, ["3C2"]),
    (1, -62, ["3D0"]), (1, -57, ["3D1"]), (1, -47, ["3D5"]),
    (1, -54, ["3D6"]), (1, -86, ["3F0"]), (1, -80, ["3F1"]),
    (1, -96, ["3F5"]), (1, 0, ["10D0-FA 10FD-F"]), (1, -6254, ["1C80"]),
    (1, -6253, ["1C81"]), (1, -6244, ["1C82"]), (1, -6242, ["1C83-4"]),
    (1, -6243, ["1C85"]), (1, -6236, ["1C86"]), (1, -6181, ["1C87"]),
    (1, 35266, ["1C88"]), (1, -59, ["1E9B"]), (1, -7205, ["1FBE"])]
    ++ lowerRuns.map CaseRun.back

/-- Characters whose lower case is several characters. -/
def lowerExpansions : List (Nat × List Nat) :=
  [(0x130, [0x69, 0x307])]

/-- Characters whose title case is several characters. -/
def titleExpansions : List (Nat × List Nat) :=
  [(0xDF, [0x53, 0x73]), (0x149, [0x2BC, 0x4E]), (0x1F0, [0x4A, 0x30C]),
   (0x390, [0x399, 0x308, 0x301]), (0x3B0, [0x3A5, 0x308, 0x301]),
   (0x587, [0x535, 0x582]), (0x1E96, [0x48, 0x331]), (0x1E97, [0x54, 0x308]),
   (0x1E98, [0x57, 0x30A]), (0x1E99, [0x59, 0x30A]), (0x1E9A, [0x41, 0x2BE]),
   (0x1F50, [0x3A5, 0x313]), (0x1F52, [0x3A5, 0x313, 0x300]),
   (0x1F54, [0x3A5, 0x313, 0x301]), (0x1F56, [0x3A5, 0x313, 0x342]),
   (0x1FB2, [0x1FBA, 0x345]), (0x1FB4, [0x386, 0x345]),
   (0x1FB6, [0x391, 0x342]), (0x1FB7, [0x391, 0x342, 0x345]),
   (0x1FC2, [0x1FCA, 0x345]), (0x1FC4, [0x389, 0x345]),
   (0x1FC6, [0x397, 0x342]), (0x1FC7, [0x397, 0x342, 0x345]),
   (0x1FD2, [0x399, 0x308, 0x300]), (0x1FD3, [0x399, 0x308, 0x301]),
   (0x1FD6, [0x399, 0x342]), (0x1FD7, [0x399, 0x308, 0x342]),
   (0x1FE2, [0x3A5, 0x308, 0x300]), (0x1FE3, [0x3A5, 0x308, 0x301]),
   (0x1FE4, [0x3A1, 0x313]), (0x1FE6, [0x3A5, 0x342]),
   (0x1FE7, [0x3A5, 0x308, 0x342]), (0x1FF2, [0x1FFA, 0x345]),
   (0x1FF4, [0x38F, 0x345]), (0x1FF6, [0x3A9, 0x342]),
   (0x1FF7, [0x3A9, 0x342, 0x345]), (0xFB00, [0x46, 0x66]),
   (0xFB01, [0x46, 0x69]), (0xFB02, [0x46, 0x6C]),
   (0xFB03, [0x46, 0x66, 0x69]), (0xFB04, [0x46, 0x66, 0x6C]),
   (0xFB05, [0x53, 0x74]), (0xFB06, [0x53, 0x74]), (0xFB13, [0x544, 0x576]),
   (0xFB14, [0x544, 0x565]), (0xFB15, [0x544, 0x56B]),
   (0xFB16, [0x54E, 0x576]), (0xFB17, [0x544, 0x56D])]

/-- Cased characters beyond ASCII that casing does not look through. -/
def casedRanges : List (Nat × Nat) :=
  rangesIn [
    "AA B5 BA C0-D6 D8-F6 F8-1BA 1BC-F 1C4-293 295-AF 370-3 376-7 37B-D 37F",
    "386 388-A 38C 38E-A1 3A3-F5 3F7-481 48A-52F 531-56 560-88 10A0-C5 10C7",
    "10CD 10D0-FA 10FD-F 13A0-F5 13F8-D 1C80-8 1C90-BA 1CBD-F 1D00-2B",
    "1D6B-77 1D79-9A 1E00-F15 1F18-D 1F20-45 1F48-D 1F50-7 1F59 1F5B 1F5D",
    "1F5F-7D 1F80-B4 1FB6-C 1FBE 1FC2-4 1FC6-C 1FD0-3 1FD6-B 1FE0-C 1FF2-4",
    "1FF6-C 2102 2107 210A-13 2115 2119-D 2124 2126 2128 212A-D 212F-34 2139",
    "213C-F 2145-9 214E 2160-7F 2183-4 24B6-E9 2C00-7B 2C7E-E4 2CEB-E 2CF2-3",
    "2D00-25 2D27 2D2D A640-6D A680-9B A722-6F A771-87 A78B-E A790-CA A7D0-1",
    "A7D3 A7D5-9 A7F5-6 A7FA AB30-5A AB60-8 AB70-BF FB00-6 FB13-7 FF21-3A",
    "FF41-5A 10400-4F 104B0-D3 104D8-FB 10570-A 1057C-8A 1058C-92 10594-5",
    "10597-A1 105A3-B1 105B3-9 105BB-C 10C80-B2 10CC0-F2 118A0-DF 16E40-7F",
    "1D400-54 1D456-9C 1D49E-F 1D4A2 1D4A5-6 1D4A9-C 1D4AE-B9 1D4BB 1D4BD-C3",
    "1D4C5-505 1D507-A 1D50D-14 1D516-C 1D51E-39 1D53B-E 1D540-4 1D546",
    "1D54A-50 1D552-6A5 1D6A8-C0 1D6C2-DA 1D6DC-FA 1D6FC-714 1D716-34",
    "1D736-4E 1D750-6E 1D770-88 1D78A-A8 1D7AA-C2 1D7C4-B 1DF00-9 1DF0B-1E",
    "1E900-43 1F130-49 1F150-69 1F170-89"]

/-- Characters beyond ASCII that casing looks through. -/
def caseIgnorableRanges : List (Nat × Nat) :=
  rangesIn [
    "A8 AD AF B4 B7-8 2B0-36F 374-5 37A 384-5 387 483-9 559 55F 591-BD 5BF",
    "5C1-2 5C4-5 5C7 5F4 600-5 610-A 61C 640 64B-5F 670 6D6-D 6DF-E8 6EA-D",
    "70F 711 730-4A 7A6-B0 7EB-F5 7FA 7FD 816-2D 859-B 888 890-1 898-F",
    "8C9-902 93A 93C 941-8 94D 951-7 962-3 971 981 9BC 9C1-4 9CD 9E2-3 9FE",
    "A01-2 A3C A41-2 A47-8 A4B-D A51 A70-1 A75 A81-2 ABC AC1-5 AC7-8 ACD",
    "AE2-3 AFA-F B01 B3C B3F B41-4 B4D B55-6 B62-3 B82 BC0 BCD C00 C04 C3C",
    "C3E-40 C46-8 C4A-D C55-6 C62-3 C81 CBC CBF CC6 CCC-D CE2-3 D00-1 D3B-C",
    "D41-4 D4D D62-3 D81 DCA DD2-4 DD6 E31 E34-A E46-E EB1 EB4-C EC6 EC8-D",
    "F18-9 F35 F37 F39 F71-E F80-4 F86-7 F8D-97 F99-BC FC6 102D-30 1032-7",
    "1039-A 103D-E 1058-9 105E-60 1071-4 1082 1085-6 108D 109D 10FC 135D-F",
    "1712-4 1732-3 1752-3 1772-3 17B4-5 17B7-D 17C6 17C9-D3 17D7 17DD 180B-F",
    "1843 1885-6 18A9 1920-2 1927-8 1932 1939-B 1A17-8 1A1B 1A56 1A58-E 1A60",
    "1A62 1A65-C 1A73-C 1A7F 1AA7 1AB0-CE 1B00-3 1B34 1B36-A 1B3C 1B42",
    "1B6B-73 1B80-1 1BA2-5 1BA8-9 1BAB-D 1BE6 1BE8-9 1BED 1BEF-F1 1C2C-33",
    "1C36-7 1C78-D 1CD0-2 1CD4-E0 1CE2-8 1CED 1CF4 1CF8-9 1D2C-6A 1D78",
    "1D9B-FF 1FBD 1FBF-C1 1FCD-F 1FDD-F 1FED-F 1FFD-E 200B-F 2018-9 2024",
    "2027 202A-E 2060-4 2066-F 2071 207F 2090-C 20D0-F0 2C7C-D 2CEF-F1 2D6F",
    "2D7F 2DE0-FF 2E2F 3005 302A-D 3031-5 303B 3099-E 30FC-E A015 A4F8-D",
    "A60C A66F-72 A674-D A67F A69C-F A6F0-1 A700-21 A770 A788-A A7F2-4",
    "A7F8-9 A802 A806 A80B A825-6 A82C A8C4-5 A8E0-F1 A8FF A926-D A947-51",
    "A980-2 A9B3 A9B6-9 A9BC-D A9CF A9E5-6 AA29-E AA31-2 AA35-6 AA43 AA4C",
    "AA70 AA7C AAB0 AAB2-4 AAB7-8 AABE-F AAC1 AADD AAEC-D AAF3-4 AAF6 AB5B-F",
    "AB69-B ABE5 ABE8 ABED FB1E FBB2-C2 FE00-F FE13 FE20-F FE52 FE55 FEFF",
    "FF07 FF0E FF1A FF3E FF40 FF70 FF9E-F FFE3 FFF9-B 101FD 102E0 10376-A",
    "10780-5 10787-B0 107B2-A 10A01-3 10A05-6 10A0C-F 10A38-A 10A3F 10AE5-6",
    "10D24-7 10EAB-C 10F46-50 10F82-5 11001 11038-46 11070 11073-4 1107F-81",
    "110B3-6 110B9-A 110BD 110C2 110CD 11100-2 11127-B 1112D-34 11173",
    "11180-1 111B6-E 111C9-C 111CF 1122F-31 11234 11236-7 1123E 112DF",
    "112E3-A 11300-1 1133B-C 11340 11366-C 11370-4 11438-F 11442-4 11446",
    "1145E 114B3-8 114BA 114BF-C0 114C2-3 115B2-5 115BC-D 115BF-C0 115DC-D",
    "11633-A 1163D 1163F-40 116AB 116AD 116B0-5 116B7 1171D-F 11722-5",
    "11727-B 1182F-37 11839-A 1193B-C 1193E 11943 119D4-7 119DA-B 119E0",
    "11A01-A 11A33-8 11A3B-E 11A47 11A51-6 11A59-B 11A8A-96 11A98-9 11C30-6",
    "11C38-D 11C3F 11C92-A7 11CAA-B0 11CB2-3 11CB5-6 11D31-6 11D3A 11D3C-D",
    "11D3F-45 11D47 11D90-1 11D95 11D97 11EF3-4 13430-8 16AF0-4 16B30-6",
    "16B40-3 16F4F 16F8F-9F 16FE0-1 16FE3-4 1AFF0-3 1AFF5-B 1AFFD-E 1BC9D-E",
    "1BCA0-3 1CF00-2D 1CF30-46 1D167-9 1D173-82 1D185-B 1D1AA-D 1D242-4",
    "1DA00-36 1DA3B-6C 1DA75 1DA84 1DA9B-F 1DAA1-F 1E000-6 1E008-18 1E01B-21",
    "1E023-4 1E026-A 1E130-D 1E2AE 1E2EC-F 1E8D0-6 1E944-B 1F3FB-F E0001",
    "E0020-7F E0100-EF"]

end Flowgen.Text
