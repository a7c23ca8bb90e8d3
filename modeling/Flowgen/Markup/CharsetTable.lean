import Flowgen.Text.Ranges

namespace Flowgen.Markup

/-!
# Named encodings

The encodings that a document can declare beside those that every reader knows,
with the characters of their bytes.  A byte that stands for no character has the
replacement character in its place.
-/

/-- What is known of a named encoding. -/
inductive Charset where
  /-- One byte a character: as in ASCII but for missing ones, then by a row. -/
  | letters (missing : List Nat) (row : String)
  /-- One byte a character, but those of markup are not as in ASCII. -/
  | unsuitable
  /-- Several bytes a character. -/
  | multiple
  /-- It does not give text. -/
  | noText
  /-- It refuses to stand in for faulty bytes, in these words. -/
  | refused (reason : String)
  /-- It refuses every byte from 128 on. -/
  | asciiOnly
  deriving DecidableEq, Repr

/-- What several rows share, each under one mark. -/
def sharedLetters : List (Char × String) :=
  [('#', "░▒▓│┤╡╢╖╕╣║╗╝╜╛┐└┴┬├─┼╞╟╚╔╩╦╠═╬╧╨╤╥╙╘╒╓╫╪┘┌█▄▌▐▀"),
   ('s', "αßΓπΣσµτΦΘΩδ∞φε∩≡±≥≤⌠⌡÷≈°∙·√\u207F²■\u00A0"),
   ('m', "°¢£§•¶ß®©™´¨≠ÆØ∞±≤≥¥µ∂∑∏π∫\u00AA\u00BAΩæø¿¡¬√ƒ≈∆«»…\u00A0ÀÃÕ"
      ++ "Œœ–—“”‘’÷◊ÿŸ"),
   ('a', "ÄÅÇÉÑÖÜáàâäãåçéèêëíìîïñóòôöõúùûü"),
   ('e', "¿®¬½¼¡«»░▒▓│┤ÁÂÀ©╣║╗╝¢¥┐└┴┬├─┼ãÃ╚╔╩╦╠═╬¤"),
   ('k', "©юабцдефгхи~пяр~ужвьызшэщчъЮАБЦДЕФГХИ~ПЯР~УЖВЬЫЗШЭЩЧЪ"),
   ('l', "ÇüéâäàåçêëèïîìÄÅÉæÆôöòûùÿÖÜ"),
   ('t', "·‚„‰ÂÊÁËÈÍÎÏÌÓÔ\uF8FFÒÚÛÙı\u02C6˜¯˘˙˚¸˝˛\u02C7"),
   ('z', "żŔÁÂĂÄĹĆÇČÉĘËĚÍÎĎĐŃŇÓÔŐÖ×ŘŮÚŰÜÝŢßŕáâăäĺćçčéęëěíîďđńňóôőö÷řůúűüýţ˙"),
   ('b', "æĄĮĀĆÄÅĘĒČÉŹĖĢĶĪĻŠŃŅÓŌÕÖ×ŲŁŚŪÜŻŽßąįāćäåęēčéźėģķīļšńņóōõö÷ųłśūüżž"),
   ('q', "‘’“”•–—"),
   ('c', "\u0080~\u00A0"),
   ('_', "\u00A0"),
   ('-', "\u00AD")]

/--
The characters in a row without marks: `a~z` stands for all from `a` to `z`, and
`?` for a byte that stands for none.
-/
def rowLetters : List Char → List Char
  | [] => []
  | first :: '~' :: last :: row =>
      (List.range' first.toNat (last.toNat + 1 - first.toNat)).map Char.ofNat
        ++ rowLetters row
  | '?' :: row => '\uFFFD' :: rowLetters row
  | letter :: row => letter :: rowLetters row

/-- The characters in the lines of a row. -/
def lettersIn (lines : List String) : String :=
  let row := lines.flatMap fun line => line.toList.flatMap fun letter =>
    ((sharedLetters.lookup letter).map String.toList).getD [letter]
  String.ofList (rowLetters row)

/-- The names in lines of a table, all for one thing. -/
def namedIn (lines : List String) (thing : α) : List (String × α) :=
  (Text.wordsIn lines).map fun name => (String.ofList name, thing)

open Charset in
/-- The encodings by their main names. -/
def charsets : List (String × Charset) :=
  namedIn ["cp037 cp1026 cp1140 cp273 cp424 cp500 cp864 cp875 mac_arabic",
      "mac_farsi"] unsuitable ++
  namedIn ["big5 big5hkscs cp932 cp949 cp950 euc_jis_2004 euc_jisx0213 euc_jp",
      "euc_kr gb18030 gb2312 gbk iso2022_kr johab shift_jis",
      "shift_jis_2004 shift_jisx0213 utf_16 utf_16_be utf_16_le utf_32",
      "utf_32_be utf_32_le utf_7"] multiple ++
  namedIn ["base64_codec bz2_codec hex_codec quopri_codec rot_13 uu_codec",
      "zlib_codec"] noText ++
  namedIn ["ascii iso2022_jp iso2022_jp_1 iso2022_jp_2 iso2022_jp_2004",
      "iso2022_jp_3 iso2022_jp_ext utf_8 utf_8_sig"] (letters [] "") ++
  [("hz", letters [126] ""),
   ("idna", refused "Unsupported error handling replace"),
   ("punycode", asciiOnly),
   ("undefined", refused "undefined encoding")] ++
  List.flatMap
    (fun (names, lines) => namedIn [names] (letters [] (lettersIn lines)))
    [
    ("charmap iso8859_1 latin_1 raw_unicode_escape unicode_escape",
      ["\u0080~ÿ"]),
    ("cp1006", ["c\u06F0~\u06F9،\u061B-\u061F\uFE81\uFE8D\uFE8E\uFE8E",
      "\uFE8F\uFE91\uFB56\uFB58\uFE93\uFE95\uFE97\uFB66\uFB68\uFE99\uFE9B",
      "\uFE9D\uFE9F\uFB7A\uFB7C\uFEA1\uFEA3\uFEA5\uFEA7\uFEA9\uFB84\uFEAB",
      "\uFEAD\uFB8C\uFEAF\uFB8A\uFEB1\uFEB3\uFEB5\uFEB7\uFEB9\uFEBB\uFEBD",
      "\uFEBF\uFEC1\uFEC5\uFEC9~\uFED1\uFED3\uFED5\uFED7\uFED9\uFEDB\uFB92",
      "\uFB94\uFEDD\uFEDF\uFEE0\uFEE1\uFEE3\uFB9E\uFEE5\uFEE7\uFE85\uFEED",
      "\uFBA6\uFBA8\uFBA9\uFBAA\uFE80\uFE89\uFE8A\uFE8B\uFEF1\uFEF2\uFEF3",
      "\uFBB0\uFBAE\uFE7C\uFE7D"]),
    ("cp1125", ["А~п#р~яЁёҐґЄєІіЇї·√№¤■_"]),
    ("cp1250", ["€?‚?„…†‡?‰Š‹ŚŤŽŹ?q?™š›śťžź_\u02C7˘Ł¤Ą¦~©Ş«~®Ż°±˛ł´~¸ąş»Ľ˝",
      "ľz"]),
    ("cp1251", ["ЂЃ‚ѓ„…†‡€‰Љ‹ЊЌЋЏђq?™љ›њќћџ_ЎўЈ¤Ґ¦§Ё©Є«~®Ї°±Ііґµ¶·ё№є»јЅѕї",
      "А~я"]),
    ("cp1252", ["€?‚ƒ„…†‡\u02C6‰Š‹Œ?Ž??q˜™š›œ?žŸ\u00A0~ÿ"]),
    ("cp1253", ["€?‚ƒ„…†‡?‰?‹?????q?™?›????_΅Ά£~©?«~®―°~³΄µ¶·ΈΉΊ»Ό½Ύ~Ρ?Σ~ώ"]),
    ("cp1254", ["€?‚ƒ„…†‡\u02C6‰Š‹Œ????q˜™š›œ??Ÿ\u00A0~ÏĞÑ~ÜİŞß~ïğñ~üışÿ"]),
    ("cp1255", ["€?‚ƒ„…†‡\u02C6‰?‹?????q˜™?›????\u00A0~£₪¥~©×«~¹÷»~¿\u05B0",
      "~\u05B9?\u05BB~\u05C3\u05F0~\u05F4???????\u05D0~\u05EA??\u200E",
      "\u200F"]),
    ("cp1256", ["€\u067E‚ƒ„…†‡\u02C6‰\u0679‹Œ\u0686\u0698\u0688\u06AFq",
      "\u06A9™\u0691›œ\u200C\u200D\u06BA_،¢~©\u06BE«~¹\u061B»~¾\u061F",
      "\u06C1\u0621~\u0636×\u0637~\u063A\u0640~\u0643à\u0644â\u0645~\u0648",
      "ç~ë\u0649\u064Aîï\u064B~\u064Eô\u064F\u0650÷\u0651ù\u0652ûü\u200E",
      "\u200F\u06D2"]),
    ("cp1257", ["€?‚?„…†‡?‰?‹?¨\u02C7¸?q?™?›?¯˛?_?¢£¤?¦§Ø©Ŗ«~®Æ°~·ø¹ŗ»~¾b˙"]),
    ("cp1258", ["€?‚ƒ„…†‡\u02C6‰?‹Œ????q˜™?›œ??Ÿ\u00A0~ÂĂÄ~Ë\u0300ÍÎÏĐÑ",
      "\u0309ÓÔƠÖ~ÜƯ\u0303ß~âăä~ë\u0301íîïđñ\u0323óôơö~üư₫ÿ"]),
    ("cp437", ["l¢£¥₧ƒáíóúñÑ\u00AA\u00BA¿⌐¬½¼¡«»#s"]),
    ("cp720", ["\u0080\u0081éâ\u0084à\u0086çêëèïî\u008D~\u0090\u0651\u0652",
      "ô¤\u0640ûù\u0621~\u0624£\u0625~\u0635«»#\u0636~\u063A\u0641µ\u0642~",
      "\u064A≡\u064B~\u0650≈°∙·√\u207F²■_"]),
    ("cp737", ["Α~ΡΣ~Ωα~ρσςτ~ψ#ωάέήϊίόύϋώΆΈΉΊΌΎΏ±≥≤ΪΫ÷≈°∙·√\u207F²■_"]),
    ("cp775", ["ĆüéāäģåćłēŖŗīŹÄÅÉæÆōöĢ¢ŚśÖÜø£Ø×¤ĀĪóŻżź”¦©®¬½¼Ł«»░▒▓│┤ĄČĘĖ╣",
      "║╗╝ĮŠ┐└┴┬├─┼ŲŪ╚╔╩╦╠═╬Žąčęėįšųūž┘┌█▄▌▐▀ÓßŌŃõÕµńĶķĻļņĒŅ’-±“¾¶§÷„°∙·¹³",
      "²■_"]),
    ("cp850", ["lø£Ø×ƒáíóúñÑ\u00AA\u00BAeðÐÊËÈıÍÎÏ┘┌█▄¦Ì▀ÓßÔÒõÕµþÞÚÛÙýÝ¯´-",
      "±‗¾¶§÷¸°¨·¹³²■_"]),
    ("cp852", ["ÇüéâäůćçłëŐőîŹÄĆÉĹĺôöĽľŚśÖÜŤťŁ×čáíóúĄąŽžĘę¬źČş«»░▒▓│┤ÁÂĚŞ╣",
      "║╗╝Żż┐└┴┬├─┼Ăă╚╔╩╦╠═╬¤đĐĎËďŇÍÎě┘┌█▄ŢŮ▀ÓßÔŃńňŠšŔÚŕŰýÝţ´-˝˛\u02C7˘§÷¸",
      "°¨˙űŘř■_"]),
    ("cp855", ["ђЂѓЃёЁєЄѕЅіІїЇјЈљЉњЊћЋќЌўЎџЏюЮъЪаАбБцЦдДеЕфФгГ«»░▒▓│┤хХиИ╣",
      "║╗╝йЙ┐└┴┬├─┼кК╚╔╩╦╠═╬¤лЛмМнНоОп┘┌█▄Пя▀ЯрРсСтТуУжЖвВьЬ№-ыЫзЗшШэЭщЩчЧ",
      "§■_"]),
    ("cp856", ["\u05D0~\u05EA?£?×??????????®¬½¼?«»░▒▓│┤???©╣║╗╝¢¥┐└┴┬├─┼??",
      "╚╔╩╦╠═╬¤?????????┘┌█▄¦?▀??????µ???????¯´-±‗¾¶§÷¸°¨·¹³²■_"]),
    ("cp857", ["ÇüéâäàåçêëèïîıÄÅÉæÆôöòûùİÖÜø£ØŞşáíóúñÑĞğe\u00BA\u00AAÊËÈ?Í",
      "ÎÏ┘┌█▄¦Ì▀ÓßÔÒõÕµ?×ÚÛÙìÿ¯´-±?¾¶§÷¸°¨·¹³²■_"]),
    ("cp858", ["lø£Ø×ƒáíóúñÑ\u00AA\u00BAeðÐÊËÈ€ÍÎÏ┘┌█▄¦Ì▀ÓßÔÒõÕµþÞÚÛÙýÝ¯´-",
      "±‗¾¶§÷¸°¨·¹³²■_"]),
    ("cp860", ["ÇüéâãàÁçêÊèÍÔìÃÂÉÀÈôõòÚùÌÕÜ¢£Ù₧ÓáíóúñÑ\u00AA\u00BA¿Ò¬½¼¡«»",
      "#s"]),
    ("cp861", ["ÇüéâäàåçêëèÐðÞÄÅÉæÆôöþûÝýÖÜø£Ø₧ƒáíóúÁÍÓÚ¿⌐¬½¼¡«»#s"]),
    ("cp862", ["\u05D0~\u05EA¢£¥₧ƒáíóúñÑ\u00AA\u00BA¿⌐¬½¼¡«»#s"]),
    ("cp863", ["ÇüéâÂà¶çêëèïî‗À§ÉÈÊôËÏûù¤ÔÜ¢£ÙÛƒ¦´óú¨¸³¯Î⌐¬½¼¾«»#s"]),
    ("cp865", ["lø£Ø₧ƒáíóúñÑ\u00AA\u00BA¿⌐¬½¼¡«¤#s"]),
    ("cp866", ["А~п#р~яЁёЄєЇїЎў°∙·√№¤■_"]),
    ("cp869", ["??????Ά?·¬¦‘’Έ―ΉΊΪΌ??ΎΫ©Ώ²³ά£έήίϊΐόύΑ~Η½ΘΙ«»░▒▓│┤Κ~Ν╣║╗╝ΞΟ",
      "┐└┴┬├─┼ΠΡ╚╔╩╦╠═╬Σ~Ωαβγ┘┌█▄δε▀ζ~ρσςτ΄-±υφχ§ψ΅°¨ωϋΰώ■_"]),
    ("cp874", ["€????…???????????q????????_\u0E01~\u0E3A????฿~๛"]),
    ("hp_roman8", ["cÀÂÈÊËÎÏ´\u02CB\u02C6¨˜ÙÛ₤¯Ýý°ÇçÑñ¡¿¤£¥§ƒ¢âêôûáéóúàèòù",
      "äëöüÅîØÆåíøæÄìÖÜÉïßÔÁÃãÐðÍÌÓÒÕõŠšÚŸÿÞþ·µ¶¾—¼½\u00AA\u00BA«■»±"]),
    ("iso8859_10", ["cĄĒĢĪĨĶ§ĻĐŠŦŽ-ŪŊ°ąēģīĩķ·ļđšŧž―ūŋĀÁ~ÆĮČÉĘËĖÍ~ÐŅŌÓ~ÖŨØŲ",
      "Ú~ßāá~æįčéęëėí~ðņōó~öũøųú~þĸ"]),
    ("iso8859_11", ["c\u0E01~\u0E3A????฿~๛"]),
    ("iso8859_13", ["c”¢£¤„¦§Ø©Ŗ«~®Æ°~³“µ¶·ø¹ŗ»~¾b’"]),
    ("iso8859_14", ["cḂḃ£ĊċḊ§Ẁ©ẂḋỲ-®ŸḞḟĠġṀṁ¶ṖẁṗẃṠỳẄẅṡÀ~ÏŴÑ~ÖṪØ~ÝŶß~ïŵñ~öṫø",
      "~ýŷÿ"]),
    ("iso8859_15", ["\u0080~£€¥Š§š©~³Žµ¶·ž¹\u00BA»ŒœŸ¿~ÿ"]),
    ("iso8859_16", ["cĄąŁ€„Š§š©Ș«Ź-źŻ°±ČłŽ”¶·žčș»ŒœŸżÀÁÂĂÄĆÆ~ÏĐŃÒÓÔŐÖŚŰÙ~Ü",
      "ĘȚß~âăäćæ~ïđńòóôőöśűù~üęțÿ"]),
    ("iso8859_2", ["cĄ˘Ł¤ĽŚ§¨ŠŞŤŹ-ŽŻ°ą˛ł´ľś\u02C7¸šşťź˝žz"]),
    ("iso8859_3", ["cĦ˘£¤?Ĥ§¨İŞĞĴ-?Ż°ħ²~µĥ·¸ışğĵ½?żÀÁÂ?ÄĊĈÇ~Ï?Ñ~ÔĠÖ×ĜÙ~ÜŬŜ",
      "ß~â?äċĉç~ï?ñ~ôġö÷ĝù~üŭŝ˙"]),
    ("iso8859_4", ["cĄĸŖ¤ĨĻ§¨ŠĒĢŦ-Ž¯°ą˛ŗ´ĩļ\u02C7¸šēģŧŊžŋĀÁ~ÆĮČÉĘËĖÍÎĪĐŅŌĶ",
      "Ô~ØŲÚÛÜŨŪßāá~æįčéęëėíîīđņōķô~øųúûüũū˙"]),
    ("iso8859_5", ["cЁ~Ќ-Ў~я№ё~ќ§ўџ"]),
    ("iso8859_6", ["c???¤???????،-?????????????\u061B???\u061F?\u0621~",
      "\u063A?????\u0640~\u0652"]),
    ("iso8859_7", ["c‘’£€₯¦~©\u037A«¬-?―°~³΄΅Ά·ΈΉΊ»Ό½Ύ~Ρ?Σ~ώ"]),
    ("iso8859_8", ["c?¢~©×«~¹÷»~¾????????????????????????????????‗\u05D0~",
      "\u05EA??\u200E\u200F"]),
    ("iso8859_9", ["\u0080~ÏĞÑ~ÜİŞß~ïğñ~üışÿ"]),
    ("koi8_r", ["─│┌┐└┘├┤┬┴┼▀▄█▌▐~▓⌠■∙√≈≤≥_⌡°²·÷═║╒ё╓~╡Ё╢~╬k"]),
    ("koi8_t", ["қғ‚Ғ„…†‡?‰ҳ‹ҲҷҶ?Қq?™?›?????ӯӮё¤ӣ¦§???«~®?°±²Ё?Ӣ¶·?№?»???k"]),
    ("koi8_u", ["─│┌┐└┘├┤┬┴┼▀▄█▌▐~▓⌠■∙√≈≤≥_⌡°²·÷═║╒ёє╔ії╗~╛ґ╝~╡ЁЄ╣ІЇ╦~╪Ґ╬k"]),
    ("kz1048", ["ЂЃ‚ѓ„…†‡€‰Љ‹ЊҚҺЏђq?™љ›њқһџ_ҰұӘ¤Ө¦§Ё©Ғ«~®Ү°±Ііөµ¶·ё№ғ»әҢңү",
      "А~я"]),
    ("mac_croatian", ["a†°¢£§•¶ß®Š™´¨≠ŽØ∞±≤≥∆µ∂∑∏š∫\u00AA\u00BAΩžø¿¡¬√ƒ≈Ć«",
      "Č…_ÀÃÕŒœĐ—“”‘’÷◊\uF8FF©⁄€‹›Æ»–·‚„‰ÂćÁčÈÍÎÏÌÓÔđÒÚÛÙı\u02C6˜¯πË˚¸Êæ",
      "\u02C7"]),
    ("mac_cyrillic", ["А~Я†°Ґ£§•¶І®©™Ђђ≠Ѓѓ∞±≤≥іµґЈЄєЇїЉљЊњјЅ¬√ƒ≈∆«»…_ЋћЌќѕ",
      "–—“”‘’÷„ЎўЏџ№Ёёяа~ю€"]),
    ("mac_greek", ["Ä¹²É³ÖÜ΅àâä΄¨çéèêë£™îï•½‰ôö¦€ùûü†ΓΔΘΛΞΠß®©ΣΪ§≠°·Α±≤≥¥Β",
      "ΕΖΗΙΚΜΦΫΨΩάΝ¬ΟΡ≈Τ«»…_ΥΧΆΈœ–―“”‘’÷ΉΊΌΎέήίόΏύαβψδεφγηιξκ~νοπώρστθωςχυ",
      "ζϊϋΐΰ-"]),
    ("mac_iceland", ["aÝm⁄€ÐðÞþýt"]),
    ("mac_latin2", ["ÄĀāÉĄÖÜáąČäčĆćéŹźĎíďĒēĖóėôöõúĚěü†°Ę£§•¶ß®©™ę¨≠ģĮįĪ≤≥ī",
      "Ķ∂∑łĻ~ľĹĺŅņŃ¬√ńŇ∆«»…_ňŐÕőŌ–—“”‘’÷◊ōŔŕŘ‹›řŖŗŠ‚„šŚśÁŤťÍŽžŪÓÔūŮÚů~ųÝýķ",
      "ŻŁżĢ\u02C7"]),
    ("mac_roman", ["a†m⁄€‹›ﬁﬂ‡t"]),
    ("mac_romanian", ["a†°¢£§•¶ß®©™´¨≠ĂȘ∞±≤≥¥µ∂∑∏π∫\u00AA\u00BAΩăș¿¡¬√ƒ≈∆«",
      "»…_ÀÃÕŒœ–—“”‘’÷◊ÿŸ⁄€‹›Țț‡t"]),
    ("mac_turkish", ["a†mĞğİıŞş‡·‚„‰ÂÊÁËÈÍÎÏÌÓÔ\uF8FFÒÚÛÙ\uF8A0\u02C6˜¯˘˙˚",
      "¸˝˛\u02C7"]),
    ("palmos", ["€\u0081‚ƒ„…†‡\u02C6‰Š‹Œ♦♣♥♠q˜™š\u009Bœ\u009D\u009EŸ\u00A0",
      "~ÿ"]),
    ("ptcp154", ["ҖҒӮғ„…ҶҮҲүҠӢҢҚҺҸҗqҳҷҡӣңқһҹ_ЎўЈӨҘҰ§Ё©Ә«¬ӯ®Ҝ°ұІіҙө¶·ё№ә»јҪ",
      "ҫҝА~я"]),
    ("tis_620", ["\u0080~\u009F?\u0E01~\u0E3A????฿~๛"])
    ]

/-- Other names of encodings in words of a table, with the main name before. -/
def aliasesFrom (main : String) : List (List Char) → List (String × String)
  | [] => []
  | word :: words =>
      if word.getLast? = some ':' then
        aliasesFrom (String.ofList word.dropLast) words
      else
        (String.ofList word, main) :: aliasesFrom main words

/-- Other names of encodings, each with the main name. -/
def charsetAliases : List (String × String) :=
  aliasesFrom "" (Text.wordsIn [
    "ascii: ansi_x3.4_1968 ansi_x3.4_1986 ansi_x3_4_1968 cp367 csascii",
    "ibm367 iso646_us iso_646.irv_1991 iso_ir_6 us us_ascii base64_codec:",
    "base64 base_64 big5: big5_tw csbig5 x_mac_trad_chinese big5hkscs:",
    "big5_hkscs hkscs bz2_codec: bz2 cp037: csibm037 ebcdic_cp_ca",
    "ebcdic_cp_nl ebcdic_cp_us ebcdic_cp_wt ibm037 ibm039 cp1026: csibm1026",
    "ibm1026 cp1125: cp866u ibm1125 ruscii cp1140: ibm1140 cp1250:",
    "windows_1250 cp1251: windows_1251 cp1252: windows_1252 cp1253:",
    "windows_1253 cp1254: windows_1254 cp1255: windows_1255 cp1256:",
    "windows_1256 cp1257: windows_1257 cp1258: windows_1258 cp273: csibm273",
    "ibm273 cp424: csibm424 ebcdic_cp_he ibm424 cp437: cspc8codepage437",
    "ibm437 cp500: csibm500 ebcdic_cp_be ebcdic_cp_ch ibm500 cp775:",
    "cspc775baltic ibm775 cp850: cspc850multilingual ibm850 cp852: cspcp852",
    "ibm852 cp855: csibm855 ibm855 cp857: csibm857 ibm857 cp858: csibm858",
    "ibm858 cp860: csibm860 ibm860 cp861: cp_is csibm861 ibm861 cp862:",
    "cspc862latinhebrew ibm862 cp863: csibm863 ibm863 cp864: csibm864",
    "ibm864 cp865: csibm865 ibm865 cp866: csibm866 ibm866 cp869: cp_gr",
    "csibm869 ibm869 cp932: ms932 ms_kanji mskanji cp949: ms949 uhc cp950:",
    "ms950 euc_jis_2004: euc_jis2004 eucjis2004 jisx0213 euc_jisx0213:",
    "eucjisx0213 euc_jp: eucjp u_jis ujis euc_kr: euckr korean ks_c_5601",
    "ks_c_5601_1987 ks_x_1001 ksc5601 ksx1001 x_mac_korean gb18030:",
    "gb18030_2000 gb2312: chinese csiso58gb231280 euc_cn euccn eucgb2312_cn",
    "gb2312_1980 gb2312_80 iso_ir_58 x_mac_simp_chinese gbk: cp936 ms936",
    "hex_codec: hex hp_roman8: cp1051 ibm1051 r8 roman8 hz: hz_gb",
    "hz_gb_2312 hzgb iso2022_jp: csiso2022jp iso2022jp iso_2022_jp",
    "iso2022_jp_1: iso2022jp_1 iso_2022_jp_1 iso2022_jp_2: iso2022jp_2",
    "iso_2022_jp_2 iso2022_jp_2004: iso2022jp_2004 iso_2022_jp_2004",
    "iso2022_jp_3: iso2022jp_3 iso_2022_jp_3 iso2022_jp_ext: iso2022jp_ext",
    "iso_2022_jp_ext iso2022_kr: csiso2022kr iso2022kr iso_2022_kr",
    "iso8859_10: csisolatin6 iso_8859_10 iso_8859_10_1992 iso_ir_157 l6",
    "latin6 iso8859_11: iso_8859_11 iso_8859_11_2001 thai iso8859_13:",
    "iso_8859_13 l7 latin7 iso8859_14: iso_8859_14 iso_8859_14_1998",
    "iso_celtic iso_ir_199 l8 latin8 iso8859_15: iso_8859_15 l9 latin9",
    "iso8859_16: iso_8859_16 iso_8859_16_2001 iso_ir_226 l10 latin10",
    "iso8859_2: csisolatin2 iso_8859_2 iso_8859_2_1987 iso_ir_101 l2 latin2",
    "iso8859_3: csisolatin3 iso_8859_3 iso_8859_3_1988 iso_ir_109 l3 latin3",
    "iso8859_4: csisolatin4 iso_8859_4 iso_8859_4_1988 iso_ir_110 l4 latin4",
    "iso8859_5: csisolatincyrillic cyrillic iso_8859_5 iso_8859_5_1988",
    "iso_ir_144 iso8859_6: arabic asmo_708 csisolatinarabic ecma_114",
    "iso_8859_6 iso_8859_6_1987 iso_ir_127 iso8859_7: csisolatingreek",
    "ecma_118 elot_928 greek greek8 iso_8859_7 iso_8859_7_1987 iso_ir_126",
    "iso8859_8: csisolatinhebrew hebrew iso_8859_8 iso_8859_8_1988",
    "iso_ir_138 iso8859_9: csisolatin5 iso_8859_9 iso_8859_9_1989",
    "iso_ir_148 l5 latin5 johab: cp1361 ms1361 koi8_r: cskoi8r kz1048:",
    "kz_1048 rk1048 strk1048_2002 latin_1: cp819 csisolatin1 ibm819 iso8859",
    "iso8859_1 iso_8859_1 iso_8859_1_1987 iso_ir_100 l1 latin latin1",
    "mac_cyrillic: maccyrillic mac_greek: macgreek mac_iceland: maciceland",
    "mac_latin2: mac_centeuro maccentraleurope maclatin2 mac_roman:",
    "macintosh macroman mac_turkish: macturkish ptcp154: cp154 csptcp154",
    "cyrillic_asian pt154 quopri_codec: quopri quoted_printable",
    "quotedprintable rot_13: rot13 shift_jis: csshiftjis s_jis shiftjis",
    "sjis x_mac_japanese shift_jis_2004: s_jis_2004 shiftjis2004 sjis_2004",
    "shift_jisx0213: s_jisx0213 shiftjisx0213 sjisx0213 tis_620: iso_ir_166",
    "tis620 tis_620_0 tis_620_2529_0 tis_620_2529_1 utf_16: u16 utf16",
    "utf_16_be: unicodebigunmarked utf_16be utf_16_le:",
    "unicodelittleunmarked utf_16le utf_32: u32 utf32 utf_32_be: utf_32be",
    "utf_32_le: utf_32le utf_7: u7 unicode_1_1_utf_7 utf7 utf_8: cp65001 u8",
    "utf utf8 utf8_ucs2 utf8_ucs4 uu_codec: uu zlib_codec: zip zlib"])

end Flowgen.Markup
