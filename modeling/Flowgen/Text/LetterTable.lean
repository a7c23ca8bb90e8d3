import Flowgen.Text.Ranges

namespace Flowgen.Text

/-!
# Letters and numerals of Unicode 14 beyond ASCII

Ranges of code points, both ends included, in increasing order.  Letters are
the general categories Lm, Lt, Lu, Ll and Lo.  Numerals are all other characters
with a numeric value.  Ten digits of a script stand in a row, from its zero on.
-/

/-- The letters beyond ASCII. -/
def letterRanges : List (Nat × Nat) :=
  rangesIn [
    "AA B5 BA C0-D6 D8-F6 F8-2C1 2C6-D1 2E0-4 2EC 2EE 370-4 376-7 37A-D 37F",
    "386 388-A 38C 38E-A1 3A3-F5 3F7-481 48A-52F 531-56 559 560-88 5D0-EA",
    "5EF-F2 620-4A 66E-F 671-D3 6D5 6E5-6 6EE-F 6FA-C 6FF 710 712-2F 74D-A5",
    "7B1 7CA-EA 7F4-5 7FA 800-15 81A 824 828 840-58 860-A 870-87 889-E",
    "8A0-C9 904-39 93D 950 958-61 971-80 985-C 98F-90 993-A8 9AA-B0 9B2",
    "9B6-9 9BD 9CE 9DC-D 9DF-E1 9F0-1 9FC A05-A A0F-10 A13-28 A2A-30 A32-3",
    "A35-6 A38-9 A59-C A5E A72-4 A85-D A8F-91 A93-A8 AAA-B0 AB2-3 AB5-9 ABD",
    "AD0 AE0-1 AF9 B05-C B0F-10 B13-28 B2A-30 B32-3 B35-9 B3D B5C-D B5F-61",
    "B71 B83 B85-A B8E-90 B92-5 B99-A B9C B9E-F BA3-4 BA8-A BAE-B9 BD0 C05-C",
    "C0E-10 C12-28 C2A-39 C3D C58-A C5D C60-1 C80 C85-C C8E-90 C92-A8 CAA-B3",
    "CB5-9 CBD CDD-E CE0-1 CF1-2 D04-C D0E-10 D12-3A D3D D4E D54-6 D5F-61",
    "D7A-F D85-96 D9A-B1 DB3-B DBD DC0-6 E01-30 E32-3 E40-6 E81-2 E84 E86-A",
    "E8C-A3 EA5 EA7-B0 EB2-3 EBD EC0-4 EC6 EDC-F F00 F40-7 F49-6C F88-C",
    "1000-2A 103F 1050-5 105A-D 1061 1065-6 106E-70 1075-81 108E 10A0-C5",
    "10C7 10CD 10D0-FA 10FC-248 124A-D 1250-6 1258 125A-D 1260-88 128A-D",
    "1290-B0 12B2-5 12B8-E 12C0 12C2-5 12C8-D6 12D8-310 1312-5 1318-5A",
    "1380-F 13A0-F5 13F8-D 1401-66C 166F-7F 1681-9A 16A0-EA 16F1-8 1700-11",
    "171F-31 1740-51 1760-C 176E-70 1780-B3 17D7 17DC 1820-78 1880-4 1887-A8",
    "18AA 18B0-F5 1900-1E 1950-6D 1970-4 1980-AB 19B0-C9 1A00-16 1A20-54",
    "1AA7 1B05-33 1B45-C 1B83-A0 1BAE-F 1BBA-E5 1C00-23 1C4D-F 1C5A-7D",
    "1C80-8 1C90-BA 1CBD-F 1CE9-C 1CEE-F3 1CF5-6 1CFA 1D00-BF 1E00-F15",
    "1F18-D 1F20-45 1F48-D 1F50-7 1F59 1F5B 1F5D 1F5F-7D 1F80-B4 1FB6-C 1FBE",
    "1FC2-4 1FC6-C 1FD0-3 1FD6-B 1FE0-C 1FF2-4 1FF6-C 2071 207F 2090-C 2102",
    "2107 210A-13 2115 2119-D 2124 2126 2128 212A-D 212F-39 213C-F 2145-9",
    "214E 2183-4 2C00-E4 2CEB-E 2CF2-3 2D00-25 2D27 2D2D 2D30-67 2D6F",
    "2D80-96 2DA0-6 2DA8-E 2DB0-6 2DB8-E 2DC0-6 2DC8-E 2DD0-6 2DD8-E 2E2F",
    "3005-6 3031-5 303B-C 3041-96 309D-F 30A1-FA 30FC-F 3105-2F 3131-8E",
    "31A0-BF 31F0-F 3400-4DBF 4E00-A48C A4D0-FD A500-60C A610-F A62A-B",
    "A640-6E A67F-9D A6A0-E5 A717-F A722-88 A78B-CA A7D0-1 A7D3 A7D5-9",
    "A7F2-801 A803-5 A807-A A80C-22 A840-73 A882-B3 A8F2-7 A8FB A8FD-E",
    "A90A-25 A930-46 A960-7C A984-B2 A9CF A9E0-4 A9E6-F A9FA-E AA00-28",
    "AA40-2 AA44-B AA60-76 AA7A AA7E-AF AAB1 AAB5-6 AAB9-D AAC0 AAC2 AADB-D",
    "AAE0-A AAF2-4 AB01-6 AB09-E AB11-6 AB20-6 AB28-E AB30-5A AB5C-69",
    "AB70-E2 AC00-D7A3 D7B0-C6 D7CB-FB F900-A6D FA70-D9 FB00-6 FB13-7 FB1D",
    "FB1F-28 FB2A-36 FB38-C FB3E FB40-1 FB43-4 FB46-B1 FBD3-D3D FD50-8F",
    "FD92-C7 FDF0-B FE70-4 FE76-FC FF21-3A FF41-5A FF66-BE FFC2-7 FFCA-F",
    "FFD2-7 FFDA-C 10000-B 1000D-26 10028-3A 1003C-D 1003F-4D 10050-D",
    "10080-FA 10280-9C 102A0-D0 10300-1F 1032D-40 10342-9 10350-75 10380-9D",
    "103A0-C3 103C8-F 10400-9D 104B0-D3 104D8-FB 10500-27 10530-63 10570-A",
    "1057C-8A 1058C-92 10594-5 10597-A1 105A3-B1 105B3-9 105BB-C 10600-736",
    "10740-55 10760-7 10780-5 10787-B0 107B2-A 10800-5 10808 1080A-35",
    "10837-8 1083C 1083F-55 10860-76 10880-9E 108E0-F2 108F4-5 10900-15",
    "10920-39 10980-B7 109BE-F 10A00 10A10-3 10A15-7 10A19-35 10A60-7C",
    "10A80-9C 10AC0-7 10AC9-E4 10B00-35 10B40-55 10B60-72 10B80-91 10C00-48",
    "10C80-B2 10CC0-F2 10D00-23 10E80-A9 10EB0-1 10F00-1C 10F27 10F30-45",
    "10F70-81 10FB0-C4 10FE0-F6 11003-37 11071-2 11075 11083-AF 110D0-E8",
    "11103-26 11144 11147 11150-72 11176 11183-B2 111C1-4 111DA 111DC",
    "11200-11 11213-2B 11280-6 11288 1128A-D 1128F-9D 1129F-A8 112B0-DE",
    "11305-C 1130F-10 11313-28 1132A-30 11332-3 11335-9 1133D 11350 1135D-61",
    "11400-34 11447-A 1145F-61 11480-AF 114C4-5 114C7 11580-AE 115D8-B",
    "11600-2F 11644 11680-AA 116B8 11700-1A 11740-6 11800-2B 118A0-DF",
    "118FF-906 11909 1190C-13 11915-6 11918-2F 1193F 11941 119A0-7 119AA-D0",
    "119E1 119E3 11A00 11A0B-32 11A3A 11A50 11A5C-89 11A9D 11AB0-F8 11C00-8",
    "11C0A-2E 11C40 11C72-8F 11D00-6 11D08-9 11D0B-30 11D46 11D60-5 11D67-8",
    "11D6A-89 11D98 11EE0-F2 11FB0 12000-399 12480-543 12F90-F0 13000-42E",
    "14400-646 16800-A38 16A40-5E 16A70-BE 16AD0-ED 16B00-2F 16B40-3",
    "16B63-77 16B7D-8F 16E40-7F 16F00-4A 16F50 16F93-F 16FE0-1 16FE3",
    "17000-87F7 18800-CD5 18D00-8 1AFF0-3 1AFF5-B 1AFFD-E 1B000-122 1B150-2",
    "1B164-7 1B170-2FB 1BC00-6A 1BC70-C 1BC80-8 1BC90-9 1D400-54 1D456-9C",
    "1D49E-F 1D4A2 1D4A5-6 1D4A9-C 1D4AE-B9 1D4BB 1D4BD-C3 1D4C5-505 1D507-A",
    "1D50D-14 1D516-C 1D51E-39 1D53B-E 1D540-4 1D546 1D54A-50 1D552-6A5",
    "1D6A8-C0 1D6C2-DA 1D6DC-FA 1D6FC-714 1D716-34 1D736-4E 1D750-6E",
    "1D770-88 1D78A-A8 1D7AA-C2 1D7C4-B 1DF00-1E 1E100-2C 1E137-D 1E14E",
    "1E290-AD 1E2C0-EB 1E7E0-6 1E7E8-B 1E7ED-E 1E7F0-E 1E800-C4 1E900-43",
    "1E94B 1EE00-3 1EE05-1F 1EE21-2 1EE24 1EE27 1EE29-32 1EE34-7 1EE39 1EE3B",
    "1EE42 1EE47 1EE49 1EE4B 1EE4D-F 1EE51-2 1EE54 1EE57 1EE59 1EE5B 1EE5D",
    "1EE5F 1EE61-2 1EE64 1EE67-A 1EE6C-72 1EE74-7 1EE79-C 1EE7E 1EE80-9",
    "1EE8B-9B 1EEA1-3 1EEA5-9 1EEAB-BB 20000-A6DF 2A700-B738 2B740-81D",
    "2B820-CEA1 2CEB0-EBE0 2F800-A1D 30000-134A"]

/-- The numerals beyond ASCII that are no letters. -/
def numeralRanges : List (Nat × Nat) :=
  rangesIn [
    "B2-3 B9 BC-E 660-9 6F0-9 7C0-9 966-F 9E6-F 9F4-9 A66-F AE6-F B66-F",
    "B72-7 BE6-F2 C66-F C78-E CE6-F D58-E D66-78 DE6-F E50-9 ED0-9 F20-33",
    "1040-9 1090-9 1369-7C 16EE-F0 17E0-9 17F0-9 1810-9 1946-F 19D0-A 1A80-9",
    "1A90-9 1B50-9 1BB0-9 1C40-9 1C50-9 2070 2074-9 2080-9 2150-82 2185-9",
    "2460-9B 24EA-FF 2776-93 2CFD 3007 3021-9 3038-A 3192-5 3220-9 3248-F",
    "3251-F 3280-9 32B1-F A620-9 A6E6-F A830-5 A8D0-9 A900-9 A9D0-9 A9F0-9",
    "AA50-9 ABF0-9 FF10-9 10107-33 10140-78 1018A-B 102E1-FB 10320-3 10341",
    "1034A 103D1-5 104A0-9 10858-F 10879-F 108A7-F 108FB-F 10916-B 109BC-D",
    "109C0-F 109D2-FF 10A40-8 10A7D-E 10A9D-F 10AEB-F 10B58-F 10B78-F",
    "10BA9-F 10CFA-F 10D30-9 10E60-7E 10F1D-26 10F51-4 10FC5-B 11052-6F",
    "110F0-9 11136-F 111D0-9 111E1-F4 112F0-9 11450-9 114D0-9 11650-9",
    "116C0-9 11730-B 118E0-F2 11950-9 11C50-6C 11D50-9 11DA0-9 11FC0-D4",
    "12400-6E 16A60-9 16AC0-9 16B50-9 16B5B-61 16E80-96 1D2E0-F3 1D360-78",
    "1D7CE-FF 1E140-9 1E2F0-9 1E8C7-F 1E950-9 1EC71-AB 1ECAD-F 1ECB1-4",
    "1ED01-2D 1ED2F-3D 1F100-C 1FBF0-9"]

/-- The zeros of the decimal digits beyond ASCII. -/
def zeroDigits : List Nat :=
  (rangesIn [
    "660 6F0 7C0 966 9E6 A66 AE6 B66 BE6 C66 CE6 D66 DE6 E50 ED0 F20 1040",
    "1090 17E0 1810 1946 19D0 1A80 1A90 1B50 1BB0 1C40 1C50 A620 A8D0 A900",
    "A9D0 A9F0 AA50 ABF0 FF10 104A0 10D30 11066 110F0 11136 111D0 112F0",
    "11450 114D0 11650 116C0 11730 118E0 11950 11C50 11D50 11DA0 16A60 16AC0",
    "16B50 1D7CE 1D7D8 1D7E2 1D7EC 1D7F6 1E140 1E2F0 1E950 1FBF0"]).map Prod.fst

end Flowgen.Text
