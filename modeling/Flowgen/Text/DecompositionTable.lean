import Flowgen.Text.Ranges

namespace Flowgen.Text

/-!
# Canonical decompositions of Unicode 14

Characters with their full canonical decompositions, Hangul syllables apart, and
the combining classes other than zero.
-/

/--
Lines with decompositions: the parts of one character after the other, from the
one with the code point before a colon on.  Marks count from the code point 300.
-/
def decompositionLines : List String :=
  [
    "C0: 41+0 41+1 41+2 41+3 41+8 41+A C7: 43+27 45+0 45+1 45+2 45+8 49+0",
    "49+1 49+2 49+8 D1: 4E+3 4F+0 4F+1 4F+2 4F+3 4F+8 D9: 55+0 55+1 55+2 55+8",
    "59+1 E0: 61+0 61+1 61+2 61+3 61+8 61+A E7: 63+27 65+0 65+1 65+2 65+8",
    "69+0 69+1 69+2 69+8 F1: 6E+3 6F+0 6F+1 6F+2 6F+3 6F+8 F9: 75+0 75+1 75+2",
    "75+8 79+1 FF: 79+8 41+4 61+4 41+6 61+6 41+28 61+28 43+1 63+1 43+2 63+2",
    "43+7 63+7 43+C 63+C 44+C 64+C 112: 45+4 65+4 45+6 65+6 45+7 65+7 45+28",
    "65+28 45+C 65+C 47+2 67+2 47+6 67+6 47+7 67+7 47+27 67+27 48+2 68+2 128:",
    "49+3 69+3 49+4 69+4 49+6 69+6 49+28 69+28 49+7 134: 4A+2 6A+2 4B+27",
    "6B+27 139: 4C+1 6C+1 4C+27 6C+27 4C+C 6C+C 143: 4E+1 6E+1 4E+27 6E+27",
    "4E+C 6E+C 14C: 4F+4 6F+4 4F+6 6F+6 4F+B 6F+B 154: 52+1 72+1 52+27 72+27",
    "52+C 72+C 53+1 73+1 53+2 73+2 53+27 73+27 53+C 73+C 54+27 74+27 54+C",
    "74+C 168: 55+3 75+3 55+4 75+4 55+6 75+6 55+A 75+A 55+B 75+B 55+28 75+28",
    "57+2 77+2 59+2 79+2 59+8 5A+1 7A+1 5A+7 7A+7 5A+C 7A+C 1A0: 4F+1B 6F+1B",
    "1AF: 55+1B 75+1B 1CD: 41+C 61+C 49+C 69+C 4F+C 6F+C 55+C 75+C 55+8+4",
    "75+8+4 55+8+1 75+8+1 55+8+C 75+8+C 55+8+0 75+8+0 1DE: 41+8+4 61+8+4",
    "41+7+4 61+7+4 C6+4 E6+4 1E6: 47+C 67+C 4B+C 6B+C 4F+28 6F+28 4F+28+4",
    "6F+28+4 1B7+C 292+C 6A+C 1F4: 47+1 67+1 1F8: 4E+0 6E+0 41+A+1 61+A+1",
    "C6+1 E6+1 D8+1 F8+1 41+F 61+F 41+11 61+11 45+F 65+F 45+11 65+11 49+F",
    "69+F 49+11 69+11 4F+F 6F+F 4F+11 6F+11 52+F 72+F 52+11 72+11 55+F 75+F",
    "55+11 75+11 53+26 73+26 54+26 74+26 21E: 48+C 68+C 226: 41+7 61+7 45+27",
    "65+27 4F+8+4 6F+8+4 4F+3+4 6F+3+4 4F+7 6F+7 4F+7+4 6F+7+4 59+4 79+4 340:",
    "300 301 343: 313 308+1 374: 2B9 37E: 3B 385: A8+1 391+1 B7 395+1 397+1",
    "399+1 38C: 39F+1 38E: 3A5+1 3A9+1 3B9+8+1 3AA: 399+8 3A5+8 3B1+1 3B5+1",
    "3B7+1 3B9+1 3C5+8+1 3CA: 3B9+8 3C5+8 3BF+1 3C5+1 3C9+1 3D3: 3D2+1 3D2+8",
    "400: 415+0 415+8 403: 413+1 407: 406+8 40C: 41A+1 418+0 423+6 419: 418+6",
    "439: 438+6 450: 435+0 435+8 453: 433+1 457: 456+8 45C: 43A+1 438+0 443+6",
    "476: 474+F 475+F 4C1: 416+6 436+6 4D0: 410+6 430+6 410+8 430+8 4D6:",
    "415+6 435+6 4DA: 4D8+8 4D9+8 416+8 436+8 417+8 437+8 4E2: 418+4 438+4",
    "418+8 438+8 41E+8 43E+8 4EA: 4E8+8 4E9+8 42D+8 44D+8 423+4 443+4 423+8",
    "443+8 423+B 443+B 427+8 447+8 4F8: 42B+8 44B+8 622: 627+353 627+354",
    "648+354 627+355 64A+354 6C0: 6D5+354 6C2: 6C1+354 6D3: 6D2+354 929:",
    "928+63C 931: 930+63C 934: 933+63C 958: 915+63C 916+63C 917+63C 91C+63C",
    "921+63C 922+63C 92B+63C 92F+63C 9CB: 9C7+6BE 9C7+6D7 9DC: 9A1+6BC",
    "9A2+6BC 9DF: 9AF+6BC A33: A32+73C A36: A38+73C A59: A16+73C A17+73C",
    "A1C+73C A5E: A2B+73C B48: B47+856 B4B: B47+83E B47+857 B5C: B21+83C",
    "B22+83C B94: B92+8D7 BCA: BC6+8BE BC7+8BE BC6+8D7 C48: C46+956 CC0:",
    "CBF+9D5 CC7: CC6+9D5 CC6+9D6 CCA: CC6+9C2 CC6+9C2+9D5 D4A: D46+A3E",
    "D47+A3E D46+A57 DDA: DD9+ACA DDC: DD9+ACF DD9+ACF+ACA DD9+ADF F43:",
    "F42+CB7 F4D: F4C+CB7 F52: F51+CB7 F57: F56+CB7 F5C: F5B+CB7 F69: F40+CB5",
    "F73: F71+C72 F75: F71+C74 FB2+C80 F78: FB3+C80 F81: F71+C80 F93: F92+CB7",
    "F9D: F9C+CB7 FA2: FA1+CB7 FA7: FA6+CB7 FAC: FAB+CB7 FB9: F90+CB5 1026:",
    "1025+D2E 1B06: 1B05+1835 1B08: 1B07+1835 1B0A: 1B09+1835 1B0C: 1B0B+1835",
    "1B0E: 1B0D+1835 1B12: 1B11+1835 1B3B: 1B3A+1835 1B3D: 1B3C+1835 1B40:",
    "1B3E+1835 1B3F+1835 1B43: 1B42+1835 1E00: 41+25 61+25 42+7 62+7 42+23",
    "62+23 42+31 62+31 43+27+1 63+27+1 44+7 64+7 44+23 64+23 44+31 64+31",
    "44+27 64+27 44+2D 64+2D 45+4+0 65+4+0 45+4+1 65+4+1 45+2D 65+2D 45+30",
    "65+30 45+27+6 65+27+6 46+7 66+7 47+4 67+4 48+7 68+7 48+23 68+23 48+8",
    "68+8 48+27 68+27 48+2E 68+2E 49+30 69+30 49+8+1 69+8+1 4B+1 6B+1 4B+23",
    "6B+23 4B+31 6B+31 4C+23 6C+23 4C+23+4 6C+23+4 4C+31 6C+31 4C+2D 6C+2D",
    "4D+1 6D+1 4D+7 6D+7 4D+23 6D+23 4E+7 6E+7 4E+23 6E+23 4E+31 6E+31 4E+2D",
    "6E+2D 4F+3+1 6F+3+1 4F+3+8 6F+3+8 4F+4+0 6F+4+0 4F+4+1 6F+4+1 50+1 70+1",
    "50+7 70+7 52+7 72+7 52+23 72+23 52+23+4 72+23+4 52+31 72+31 53+7 73+7",
    "53+23 73+23 53+1+7 73+1+7 53+C+7 73+C+7 53+23+7 73+23+7 54+7 74+7 54+23",
    "74+23 54+31 74+31 54+2D 74+2D 55+24 75+24 55+30 75+30 55+2D 75+2D 55+3+1",
    "75+3+1 55+4+8 75+4+8 56+3 76+3 56+23 76+23 57+0 77+0 57+1 77+1 57+8 77+8",
    "57+7 77+7 57+23 77+23 58+7 78+7 58+8 78+8 59+7 79+7 5A+2 7A+2 5A+23",
    "7A+23 5A+31 7A+31 68+31 74+8 77+A 79+A 1E9B: 17F+7 1EA0: 41+23 61+23",
    "41+9 61+9 41+2+1 61+2+1 41+2+0 61+2+0 41+2+9 61+2+9 41+2+3 61+2+3",
    "41+23+2 61+23+2 41+6+1 61+6+1 41+6+0 61+6+0 41+6+9 61+6+9 41+6+3 61+6+3",
    "41+23+6 61+23+6 45+23 65+23 45+9 65+9 45+3 65+3 45+2+1 65+2+1 45+2+0",
    "65+2+0 45+2+9 65+2+9 45+2+3 65+2+3 45+23+2 65+23+2 49+9 69+9 49+23 69+23",
    "4F+23 6F+23 4F+9 6F+9 4F+2+1 6F+2+1 4F+2+0 6F+2+0 4F+2+9 6F+2+9 4F+2+3",
    "6F+2+3 4F+23+2 6F+23+2 4F+1B+1 6F+1B+1 4F+1B+0 6F+1B+0 4F+1B+9 6F+1B+9",
    "4F+1B+3 6F+1B+3 4F+1B+23 6F+1B+23 55+23 75+23 55+9 75+9 55+1B+1 75+1B+1",
    "55+1B+0 75+1B+0 55+1B+9 75+1B+9 55+1B+3 75+1B+3 55+1B+23 75+1B+23 59+0",
    "79+0 59+23 79+23 59+9 79+9 59+3 79+3 1F00: 3B1+13 3B1+14 3B1+13+0",
    "3B1+14+0 3B1+13+1 3B1+14+1 3B1+13+42 3B1+14+42 391+13 391+14 391+13+0",
    "391+14+0 391+13+1 391+14+1 391+13+42 391+14+42 3B5+13 3B5+14 3B5+13+0",
    "3B5+14+0 3B5+13+1 3B5+14+1 1F18: 395+13 395+14 395+13+0 395+14+0",
    "395+13+1 395+14+1 1F20: 3B7+13 3B7+14 3B7+13+0 3B7+14+0 3B7+13+1",
    "3B7+14+1 3B7+13+42 3B7+14+42 397+13 397+14 397+13+0 397+14+0 397+13+1",
    "397+14+1 397+13+42 397+14+42 3B9+13 3B9+14 3B9+13+0 3B9+14+0 3B9+13+1",
    "3B9+14+1 3B9+13+42 3B9+14+42 399+13 399+14 399+13+0 399+14+0 399+13+1",
    "399+14+1 399+13+42 399+14+42 3BF+13 3BF+14 3BF+13+0 3BF+14+0 3BF+13+1",
    "3BF+14+1 1F48: 39F+13 39F+14 39F+13+0 39F+14+0 39F+13+1 39F+14+1 1F50:",
    "3C5+13 3C5+14 3C5+13+0 3C5+14+0 3C5+13+1 3C5+14+1 3C5+13+42 3C5+14+42",
    "1F59: 3A5+14 1F5B: 3A5+14+0 1F5D: 3A5+14+1 1F5F: 3A5+14+42 3C9+13 3C9+14",
    "3C9+13+0 3C9+14+0 3C9+13+1 3C9+14+1 3C9+13+42 3C9+14+42 3A9+13 3A9+14",
    "3A9+13+0 3A9+14+0 3A9+13+1 3A9+14+1 3A9+13+42 3A9+14+42 3B1+0 3B1+1",
    "3B5+0 3B5+1 3B7+0 3B7+1 3B9+0 3B9+1 3BF+0 3BF+1 3C5+0 3C5+1 3C9+0 3C9+1",
    "1F80: 3B1+13+45 3B1+14+45 3B1+13+0+45 3B1+14+0+45 3B1+13+1+45",
    "3B1+14+1+45 3B1+13+42+45 3B1+14+42+45 391+13+45 391+14+45 391+13+0+45",
    "391+14+0+45 391+13+1+45 391+14+1+45 391+13+42+45 391+14+42+45 3B7+13+45",
    "3B7+14+45 3B7+13+0+45 3B7+14+0+45 3B7+13+1+45 3B7+14+1+45 3B7+13+42+45",
    "3B7+14+42+45 397+13+45 397+14+45 397+13+0+45 397+14+0+45 397+13+1+45",
    "397+14+1+45 397+13+42+45 397+14+42+45 3C9+13+45 3C9+14+45 3C9+13+0+45",
    "3C9+14+0+45 3C9+13+1+45 3C9+14+1+45 3C9+13+42+45 3C9+14+42+45 3A9+13+45",
    "3A9+14+45 3A9+13+0+45 3A9+14+0+45 3A9+13+1+45 3A9+14+1+45 3A9+13+42+45",
    "3A9+14+42+45 3B1+6 3B1+4 3B1+0+45 3B1+45 3B1+1+45 1FB6: 3B1+42 3B1+42+45",
    "391+6 391+4 391+0 391+1 391+45 1FBE: 3B9 1FC1: A8+42 3B7+0+45 3B7+45",
    "3B7+1+45 1FC6: 3B7+42 3B7+42+45 395+0 395+1 397+0 397+1 397+45 1FBF+0",
    "1FBF+1 1FBF+42 3B9+6 3B9+4 3B9+8+0 3B9+8+1 1FD6: 3B9+42 3B9+8+42 399+6",
    "399+4 399+0 399+1 1FDD: 1FFE+0 1FFE+1 1FFE+42 3C5+6 3C5+4 3C5+8+0",
    "3C5+8+1 3C1+13 3C1+14 3C5+42 3C5+8+42 3A5+6 3A5+4 3A5+0 3A5+1 3A1+14",
    "A8+0 A8+1 60 1FF2: 3C9+0+45 3C9+45 3C9+1+45 1FF6: 3C9+42 3C9+42+45 39F+0",
    "39F+1 3A9+0 3A9+1 3A9+45 B4 2000: 2002 2003 2126: 3A9 212A: 4B 41+A",
    "219A: 2190+38 2192+38 21AE: 2194+38 21CD: 21D0+38 21D4+38 21D2+38 2204:",
    "2203+38 2209: 2208+38 220C: 220B+38 2224: 2223+38 2226: 2225+38 2241:",
    "223C+38 2244: 2243+38 2247: 2245+38 2249: 2248+38 2260: 3D+38 2262:",
    "2261+38 226D: 224D+38 3C+38 3E+38 2264+38 2265+38 2274: 2272+38 2273+38",
    "2278: 2276+38 2277+38 2280: 227A+38 227B+38 2284: 2282+38 2283+38 2288:",
    "2286+38 2287+38 22AC: 22A2+38 22A8+38 22A9+38 22AB+38 22E0: 227C+38",
    "227D+38 2291+38 2292+38 22EA: 22B2+38 22B3+38 22B4+38 22B5+38 2329: 3008",
    "3009 2ADC: 2ADD+38 304C: 304B+2D99 304E: 304D+2D99 3050: 304F+2D99 3052:",
    "3051+2D99 3054: 3053+2D99 3056: 3055+2D99 3058: 3057+2D99 305A:",
    "3059+2D99 305C: 305B+2D99 305E: 305D+2D99 3060: 305F+2D99 3062:",
    "3061+2D99 3065: 3064+2D99 3067: 3066+2D99 3069: 3068+2D99 3070:",
    "306F+2D99 306F+2D9A 3073: 3072+2D99 3072+2D9A 3076: 3075+2D99 3075+2D9A",
    "3079: 3078+2D99 3078+2D9A 307C: 307B+2D99 307B+2D9A 3094: 3046+2D99",
    "309E: 309D+2D99 30AC: 30AB+2D99 30AE: 30AD+2D99 30B0: 30AF+2D99 30B2:",
    "30B1+2D99 30B4: 30B3+2D99 30B6: 30B5+2D99 30B8: 30B7+2D99 30BA:",
    "30B9+2D99 30BC: 30BB+2D99 30BE: 30BD+2D99 30C0: 30BF+2D99 30C2:",
    "30C1+2D99 30C5: 30C4+2D99 30C7: 30C6+2D99 30C9: 30C8+2D99 30D0:",
    "30CF+2D99 30CF+2D9A 30D3: 30D2+2D99 30D2+2D9A 30D6: 30D5+2D99 30D5+2D9A",
    "30D9: 30D8+2D99 30D8+2D9A 30DC: 30DB+2D99 30DB+2D9A 30F4: 30A6+2D99",
    "30F7: 30EF+2D99 30F0+2D99 30F1+2D99 30F2+2D99 30FE: 30FD+2D99 FB1D:",
    "5D9+2B4 FB1F: 5F2+2B7 FB2A: 5E9+2C1 5E9+2C2 5E9+2BC+2C1 5E9+2BC+2C2",
    "5D0+2B7 5D0+2B8 5D0+2BC 5D1+2BC 5D2+2BC 5D3+2BC 5D4+2BC 5D5+2BC 5D6+2BC",
    "FB38: 5D8+2BC 5D9+2BC 5DA+2BC 5DB+2BC 5DC+2BC FB3E: 5DE+2BC FB40:",
    "5E0+2BC 5E1+2BC FB43: 5E3+2BC 5E4+2BC FB46: 5E6+2BC 5E7+2BC 5E8+2BC",
    "5E9+2BC 5EA+2BC 5D5+2B9 5D1+2BF 5DB+2BF 5E4+2BF 1109A: 11099+10DBA",
    "1109C: 1109B+10DBA 110AB: 110A5+10DBA 1112E: 11131+10E27 11132+10E27",
    "1134B: 11347+1103E 11347+11057 114BB: 114B9+111BA 114B9+111B0 114BE:",
    "114B9+111BD 115BA: 115B8+112AF 115B9+112AF 11938: 11935+11630 1D15E:",
    "1D157+1CE65 1D158+1CE65 1D158+1CE65+1CE6E 1D158+1CE65+1CE6F",
    "1D158+1CE65+1CE70 1D158+1CE65+1CE71 1D158+1CE65+1CE72 1D1BB: 1D1B9+1CE65",
    "1D1BA+1CE65 1D1B9+1CE65+1CE6E 1D1BA+1CE65+1CE6E 1D1B9+1CE65+1CE6F",
    "1D1BA+1CE65+1CE6F"]

/-- Ideographs that each decompose into one other, in runs. -/
def ideographRuns : List (Nat × String) :=
  [(0xF900, "豈更車賈滑串句龜龜契金喇奈懶癩羅蘿螺裸邏樂洛烙珞落酪駱亂卵欄爛蘭鸞嵐濫藍襤拉臘蠟"
      ++ "廊朗浪狼郎來冷勞擄櫓爐盧老蘆虜路露魯鷺碌祿綠菉錄鹿論壟弄籠聾牢磊賂雷壘屢樓淚漏累"
      ++ "縷陋勒肋凜凌稜綾菱陵讀拏樂諾丹寧怒率異北磻便復不泌數索參塞省葉說殺辰沈拾若掠略亮"
      ++ "兩凉梁糧良諒量勵呂女廬旅濾礪閭驪麗黎力曆歷轢年憐戀撚漣煉璉秊練聯輦蓮連鍊列劣咽烈"
      ++ "裂說廉念捻殮簾獵令囹寧嶺怜玲瑩羚聆鈴零靈領例禮醴隸惡了僚寮尿料樂燎療蓼遼龍暈阮劉"
      ++ "杻柳流溜琉留硫紐類六戮陸倫崙淪輪律慄栗率隆利吏履易李梨泥理痢罹裏裡里離匿溺吝燐璘"
      ++ "藺隣鱗麟林淋臨立笠粒狀炙識什茶刺切度拓糖宅洞暴輻行降見廓兀嗀"),
   (0xFA10, "塚"),
   (0xFA12, "晴"),
   (0xFA15, "凞猪益礼神祥福靖精羽"),
   (0xFA20, "蘒"),
   (0xFA22, "諸"),
   (0xFA25, "逸都"),
   (0xFA2A, "飯飼館鶴郞隷侮僧免勉勤卑喝嘆器塀墨層屮悔慨憎懲敏既暑梅海渚漢煮爫琢碑社祉祈祐祖祝"
      ++ "禍禎穀突節練縉繁署者臭艹艹著褐視謁謹賓贈辶逸難響頻恵𤋮舘"),
   (0xFA70, "並况全侀充冀勇勺喝啕喙嗢塚墳奄奔婢嬨廒廙彩徭惘慎愈憎慠懲戴揄搜摒敖晴朗望杖歹殺流"
      ++ "滛滋漢瀞煮瞧爵犯猪瑱甆画瘝瘟益盛直睊着磌窱節类絛練缾者荒華蝹襁覆視調諸請謁諾諭謹"
      ++ "變贈輸遲醙鉶陼難靖韛響頋頻鬒龜𢡊𢡄𣏕㮝䀘䀹𥉉𥳐𧻓齃龎"),
   (0x2F800, "丽丸乁𠄢你侮侻倂偺備僧像㒞𠘺免兔兤具𠔜㒹內再𠕋冗冤仌冬况𩇟凵刃㓟刻剆割剷㔕勇勉勤"
      ++ "勺包匆北卉卑博即卽卿卿卿𠨬灰及叟𠭣叫叱吆咞吸呈周咢哶唐啓啣善善喙喫喳嗂圖嘆圗噑噴"
      ++ "切壮城埴堍型堲報墬𡓤売壷夆多夢奢𡚨𡛪姬娛娧姘婦㛮㛼嬈嬾嬾𡧈寃寘寧寳𡬘寿将当尢㞁屠"
      ++ "屮峀岍𡷤嵃𡷦嵮嵫嵼巡巢㠯巽帨帽幩㡢𢆃㡼庰庳庶廊𪎒廾𢌱𢌱舁弢弢㣇𣊸𦇚形彫㣣徚忍志忹"
      ++ "悁㤺㤜悔𢛔惇慈慌慎慌慺憎憲憤憯懞懲懶成戛扝抱拔捐𢬌挽拼捨掃揤𢯱搢揅掩㨮摩摾撝摷㩬"
      ++ "敏敬𣀊旣書晉㬙暑㬈㫤冒冕最暜肭䏙朗望朡杞杓𣏃㭉柺枅桒梅𣑭梎栟椔㮝楂榣槪檨𣚣櫛㰘次"
      ++ "𣢧歔㱎歲殟殺殻𣪍𡴋𣫺汎𣲼沿泍汧洖派海流浩浸涅𣴞洴港湮㴳滋滇𣻑淹潮𣽞𣾎濆瀹瀞瀛㶖灊"
      ++ "災灷炭𠔥煅𤉣熜𤎫爨爵牐𤘈犀犕𤜵𤠔獺王㺬玥㺸㺸瑇瑜瑱璅瓊㼛甤𤰶甾𤲒異𢆟瘐𤾡𤾸𥁄㿼䀈"
      ++ "直𥃳𥃲𥄙𥄳眞真真睊䀹瞋䁆䂖𥐝硎碌磌䃣𥘦祖𥚚𥛅福秫䄯穀穊穏𥥼𥪧𥪧竮䈂𥮫篆築䈧𥲀糒䊠"
      ++ "糨糣紀𥾆絣䌁緇縂繅䌴𦈨𦉇䍙𦋙罺𦌾羕翺者𦓚𦔣聠𦖨聰𣍟䏕育脃䐋脾媵𦞧𦞵𣎓𣎜舁舄辞䑫芑"
      ++ "芋芝劳花芳芽苦𦬼若茝荣莭茣莽菧著荓菊菌菜𦰶𦵫𦳕䔫蓱蓳蔖𧏊蕤𦼬䕝䕡𦾱𧃒䕫虐虜虧虩蚩"
      ++ "蚈蜎蛢蝹蜨蝫螆䗗蟡蠁䗹衠衣𧙧裗裞䘵裺㒻𧢮𧥦䚾䛇誠諭變豕𧲨貫賁贛起𧼯𠠄跋趼跰𠣞軔輸"
      ++ "𨗒𨗭邔郱鄑𨜮鄛鈸鋗鋘鉼鏹鐕𨯺開䦕閷𨵷䧦雃嶲霣𩅅𩈚䩮䩶韠𩐊䪲𩒖頋頋頩𩖶飢䬳餩馧駂駾"
      ++ "䯎𩬰鬒鱀鳽䳎䳭鵧𪃎䳸𪄅𪈎𪊑麻䵖黹黾鼅鼏鼖鼻𪘀")]

/-- The code points of the parts in a word of a line. -/
def partsIn (word : List Char) : List Nat :=
  match (splitWhere (· == '+') word).map hexadecimalNumber with
  | [] => []
  | base :: marks => base :: marks.map (0x300 + ·)

/-- Characters and their parts; `code` is the code point of the next one. -/
def decompositionsFrom (code : Nat) : List (List Char) → List (Nat × List Nat)
  | [] => []
  | word :: words =>
      if word.getLast? = some ':' then
        decompositionsFrom (hexadecimalNumber word.dropLast) words
      else
        (code, partsIn word) :: decompositionsFrom (code + 1) words

/-- Characters and what they decompose into. -/
def decompositions : List (Nat × List Nat) :=
  decompositionsFrom 0 (wordsIn decompositionLines)
    ++ ideographRuns.flatMap fun (first, ideographs) =>
      (ideographs.toList.zipIdx first).map fun (ideograph, code) =>
        (code, [ideograph.toNat])

/-- The combining classes and the ranges of their code points. -/
def combiningClasses : List (Nat × List (Nat × Nat)) :=
  List.map (fun (combiningClass, lines) => (combiningClass, rangesIn lines))
    [(240, ["345"]), (234, ["35D-E 360-1 1DCD"]), (233, ["35C 35F 362 1DFC"]),
     (232, ["315 31A 358 1DF6 302C"]),
     (230, ["300-14 33D-44 346 34A-C 350-2 357 35B 363-F 483-7 592-5 597-9",
       "59C-A1 5A8-9 5AB-C 5AF 5C4 610-7 653-4 657-B 65D-E 6D6-C 6DF-E2 6E4",
       "6E7-8 6EB-C 730 732-3 735-6 73A 73D 73F-41 743 745 747 749-A 7EB-F1",
       "7F3 816-9 81B-23 825-7 829-D 898 89C-F 8CA-E 8D4-E1 8E4-5 8E7-8",
       "8EA-C 8F3-5 8F7-8 8FB-F 951 953-4 9FE F82-3 F86-7 135D-F 17DD 193A",
       "1A17 1A75-C 1AB0-4 1ABB-C 1AC1-2 1AC5-9 1ACB-E 1B6B 1B6D-73 1CD0-2",
       "1CDA-B 1CE0 1CF4 1CF8-9 1DC0-1 1DC3-9 1DCB-C 1DD1-F5 1DFB 1DFE",
       "20D0-1 20D4-7 20DB-C 20E1 20E7 20E9 20F0 2CEF-F1 2DE0-FF A66F",
       "A674-D A69E-F A6F0-1 A8E0-F1 AAB0 AAB2-3 AAB7-8 AABE-F AAC1 FE20-6",
       "FE2E-F 10376-A 10A0F 10A38 10AE5 10D24-7 10EAB-C 10F48-A 10F4C",
       "10F82 10F84 11100-2 11366-C 11370-4 1145E 16B30-6 1D185-9 1D1AA-D",
       "1D242-4 1E000-6 1E008-18 1E01B-21 1E023-4 1E026-A 1E130-6 1E2AE",
       "1E2EC-F 1E944-9"]),
     (228, ["5AE 18A9 1DF7-8 302B"]), (226, ["1D16D"]), (224, ["302E-F"]),
     (222, ["59A 5AD 1939 302D"]),
     (220, ["316-9 31C-20 323-6 329-33 339-C 347-9 34D-E 353-6 359-A 591",
       "596 59B 5A2-7 5AA 5C5 655-6 65C 65F 6E3 6EA 6ED 731 734 737-9 73B-C",
       "73E 742 744 746 748 7F2 7FD 859-B 899-B 8CF-D3 8E3 8E6 8E9 8ED-F",
       "8F6 8F9-A 952 F18-9 F35 F37 FC6 108D 193B 1A18 1A7F 1AB5-A 1ABD",
       "1ABF-C0 1AC3-4 1ACA 1B6C 1CD5-9 1CDC-F 1CED 1DC2 1DCA 1DCF 1DF9",
       "1DFD 1DFF 20E8 20EC-F A92B-D AAB4 FE27-D 101FD 102E0 10A0D 10A3A",
       "10AE6 10F46-7 10F4B 10F4D-50 10F83 10F85 1D17B-82 1D18A-B 1E8D0-6"]),
     (218, ["1DFA 302A"]), (216, ["31B F39 1D165-6 1D16E-72"]),
     (214, ["1DCE"]), (202, ["321-2 327-8 1DD0"]), (132, ["F74"]),
     (130, ["F72 F7A-D F80"]), (129, ["F71"]), (122, ["EC8-B"]),
     (118, ["EB8-9"]), (107, ["E48-B"]), (103, ["E38-9"]), (91, ["C56"]),
     (84, ["C55"]), (36, ["711"]), (35, ["670"]), (34, ["652"]),
     (33, ["651"]), (32, ["61A 650"]), (31, ["619 64F"]), (30, ["618 64E"]),
     (29, ["64D 8F2"]), (28, ["64C 8F1"]), (27, ["64B 8F0"]), (26, ["FB1E"]),
     (25, ["5C2"]), (24, ["5C1"]), (23, ["5BF"]), (22, ["5BD"]),
     (21, ["5BC"]), (20, ["5BB"]), (19, ["5B9-A"]), (18, ["5B8 5C7"]),
     (17, ["5B7"]), (16, ["5B6"]), (15, ["5B5"]), (14, ["5B4"]),
     (13, ["5B3"]), (12, ["5B2"]), (11, ["5B1"]), (10, ["5B0"]),
     (9, ["94D 9CD A4D ACD B4D BCD C4D CCD D3B-C D4D DCA E3A EBA F84 1039-A",
       "1714-5 1734 17D2 1A60 1B44 1BAA-B 1BF2-3 2D7F A806 A82C A8C4 A953",
       "A9C0 AAF6 ABED 10A3F 11046 11070 1107F 110B9 11133-4 111C0 11235",
       "112EA 1134D 11442 114C2 115BF 1163F 116B6 1172B 11839 1193D-E 119E0",
       "11A34 11A47 11A99 11C3F 11D44-5 11D97"]),
     (8, ["3099-A"]),
     (7, ["93C 9BC A3C ABC B3C C3C CBC 1037 1B34 1BE6 1C37 A9B3 110BA 11173",
       "111CA 11236 112E9 1133B-C 11446 114C3 115C0 116B7 1183A 11943 11D42",
       "1E94A"]),
     (6, ["16FF0-1"]),
     (1, ["334-8 1CD4 1CE2-8 20D2-3 20D8-A 20E5-6 20EA-B 10A39 16AF0-4",
       "1BC9E 1D167-9"])]

end Flowgen.Text
