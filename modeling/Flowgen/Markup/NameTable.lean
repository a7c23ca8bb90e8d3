import Flowgen.Text.Ranges

namespace Flowgen.Markup

/-!
# Characters of names beyond ASCII

Ranges of code points, both ends included, in increasing order: the letters and
ideographs that may start a name, and the digits, combining marks and extenders
that may only go on in one.  No character beyond the basic plane is among them.
-/

/-- The characters beyond ASCII that may start a name. -/
def nameStartRanges : List (Nat × Nat) :=
  Text.rangesIn [
    "C0-D6 D8-F6 F8-131 134-E 141-8 14A-7E 180-C3 1CD-F0 1F4-5 1FA-217",
    "250-A8 2BB-C1 386 388-A 38C 38E-A1 3A3-CE 3D0-6 3DA 3DC 3DE 3E0 3E2-F3",
    "401-C 40E-4F 451-C 45E-81 490-C4 4C7-8 4CB-C 4D0-EB 4EE-F5 4F8-9 531-56",
    "559 561-86 5D0-EA 5F0-2 621-3A 641-A 671-B7 6BA-E 6C0-E 6D0-3 6D5 6E5-6",
    "905-39 93D 958-61 985-C 98F-90 993-A8 9AA-B0 9B2 9B6-9 9DC-D 9DF-E1",
    "9F0-1 A05-A A0F-10 A13-28 A2A-30 A32-3 A35-6 A38-9 A59-C A5E A72-4",
    "A85-B A8D A8F-91 A93-A8 AAA-B0 AB2-3 AB5-9 ABD AE0 B05-C B0F-10 B13-28",
    "B2A-30 B32-3 B36-9 B3D B5C-D B5F-61 B85-A B8E-90 B92-5 B99-A B9C B9E-F",
    "BA3-4 BA8-A BAE-B5 BB7-9 C05-C C0E-10 C12-28 C2A-33 C35-9 C60-1 C85-C",
    "C8E-90 C92-A8 CAA-B3 CB5-9 CDE CE0-1 D05-C D0E-10 D12-28 D2A-39 D60-1",
    "E01-2E E30 E32-3 E40-5 E81-2 E84 E87-8 E8A E8D E94-7 E99-F EA1-3 EA5",
    "EA7 EAA-B EAD-E EB0 EB2-3 EBD EC0-4 F40-7 F49-69 10A0-C5 10D0-F6 1100",
    "1102-3 1105-7 1109 110B-C 110E-12 113C 113E 1140 114C 114E 1150 1154-5",
    "1159 115F-61 1163 1165 1167 1169 116D-E 1172-3 1175 119E 11A8 11AB",
    "11AE-F 11B7-8 11BA 11BC-C2 11EB 11F0 11F9 1E00-9B 1EA0-F9 1F00-15",
    "1F18-D 1F20-45 1F48-D 1F50-7 1F59 1F5B 1F5D 1F5F-7D 1F80-B4 1FB6-C 1FBE",
    "1FC2-4 1FC6-C 1FD0-3 1FD6-B 1FE0-C 1FF2-4 1FF6-C 2126 212A-B 212E",
    "2180-2 3007 3021-9 3041-94 30A1-FA 3105-2C 4E00-9FA5 AC00-D7A3"]

/-- The characters beyond ASCII that may go on in a name but not start one. -/
def nameExtraRanges : List (Nat × Nat) :=
  Text.rangesIn [
    "B7 2D0-1 300-45 360-1 387 483-6 591-A1 5A3-B9 5BB-D 5BF 5C1-2 5C4 640",
    "64B-52 660-9 670 6D6-E4 6E7-8 6EA-D 6F0-9 901-3 93C 93E-4D 951-4 962-3",
    "966-F 981-3 9BC 9BE-C4 9C7-8 9CB-D 9D7 9E2-3 9E6-F A02 A3C A3E-42 A47-8",
    "A4B-D A66-71 A81-3 ABC ABE-C5 AC7-9 ACB-D AE6-F B01-3 B3C B3E-43 B47-8",
    "B4B-D B56-7 B66-F B82-3 BBE-C2 BC6-8 BCA-D BD7 BE7-F C01-3 C3E-44 C46-8",
    "C4A-D C55-6 C66-F C82-3 CBE-C4 CC6-8 CCA-D CD5-6 CE6-F D02-3 D3E-43",
    "D46-8 D4A-D D57 D66-F E31 E34-A E46-E E50-9 EB1 EB4-9 EBB-C EC6 EC8-D",
    "ED0-9 F18-9 F20-9 F35 F37 F39 F3E-F F71-84 F86-B F90-5 F97 F99-AD FB1-7",
    "FB9 20D0-C 20E1 3005 302A-F 3031-5 3099-A 309D-E 30FC-E"]

end Flowgen.Markup
