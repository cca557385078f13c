/-!
# ASCII spellings of letters and signs

Characters beyond ASCII are spelled in ASCII by a table. The table is partial: it lists
the letters and signs up to U+018F, Greek and Cyrillic, and of other scripts and of other
signs only some. A character that is not listed is left out of a text, whether or not
there is a spelling for it. A text is transliterated from its first character at or above
U+007F on: what stands before it is kept as it is, and after it control characters are
left out as well.
-/
namespace TokenRegistry.Slug

/-- Runs of spellings, each for consecutive code points from its first on. Not every character that
could be spelled is in one. -/
def spellings : List (Nat × List String) :=
  [
    (0x00A0, [" ", "!", "C/", "PS", "$?", "Y=", "|", "SS", "\"", "(c)", "a", "<<", "!", "",
      "(r)", "-", "deg", "+-", "2", "3", "'", "u", "P", "*", ",", "1", "o", ">>", "1/4", "1/2",
      "3/4", "?", "A", "A", "A", "A", "A", "A", "AE", "C", "E", "E", "E", "E", "I", "I", "I",
      "I", "D", "N", "O", "O", "O", "O", "O", "x", "O", "U", "U", "U", "U", "Y", "Th", "ss",
      "a", "a", "a", "a", "a", "a", "ae", "c", "e", "e", "e", "e", "i", "i", "i", "i", "d", "n",
      "o", "o", "o", "o", "o", "/", "o", "u", "u", "u", "u", "y", "th", "y", "A", "a", "A", "a",
      "A", "a", "C", "c", "C", "c", "C", "c", "C", "c", "D", "d", "D", "d", "E", "e", "E", "e",
      "E", "e", "E", "e", "E", "e", "G", "g", "G", "g", "G", "g", "G", "g", "H", "h", "H", "h",
      "I", "i", "I", "i", "I", "i", "I", "i", "I", "i", "IJ", "ij", "J", "j", "K", "k", "k",
      "L", "l", "L", "l", "L", "l", "L", "l", "L", "l", "N", "n", "N", "n", "N", "n", "'n",
      "ng", "NG", "O", "o", "O", "o", "O", "o", "OE", "oe", "R", "r", "R", "r", "R", "r", "S",
      "s", "S", "s", "S", "s", "S", "s", "T", "t", "T", "t", "T", "t", "U", "u", "U", "u", "U",
      "u", "U", "u", "U", "u", "U", "u", "W", "w", "Y", "y", "Y", "Z", "z", "Z", "z", "Z", "z",
      "s", "b", "B", "B", "b", "6", "6", "O", "C", "c", "D", "D", "D", "d", "d", "3", "@"]),
    (0x01C0, ["|", "||", "|=", "!", "DZ", "Dz", "dz", "LJ", "Lj", "lj", "NJ", "Nj", "nj", "A",
      "a", "I"]),
    (0x02B9, ["'"]),
    (0x02BC, ["'"]),
    (0x0370, ["H", "h", "S", "s", "'", ",", "W", "w", "", "", "i", "s", "s.", "s.", "?", "J",
      "", "", "", "", "'", "\"'", "A", ";", "E", "E", "I", "", "O", "", "U", "O", "I", "A", "B",
      "G", "D", "E", "Z", "E", "Th", "I", "K", "L", "M", "N", "Ks", "O", "P", "R", "", "S", "T",
      "U", "Ph", "Kh", "Ps", "O", "I", "U", "a", "e", "e", "i", "u", "a", "b", "g", "d", "e",
      "z", "e", "th", "i", "k", "l", "m", "n", "x", "o", "p", "r", "s", "s", "t", "u", "ph",
      "kh", "ps", "o", "i", "u", "o", "u", "o", "&", "b", "th", "U", "U", "U", "ph", "p", "&",
      "Q", "q", "St", "st", "W", "w", "Q", "q", "Sp", "sp", "Sh", "sh", "F", "f", "Kh", "kh",
      "H", "h", "G", "g", "CH", "ch", "Ti", "ti", "k", "r", "c", "j", "TH", "e", "e", "Sh",
      "sh", "s", "S", "s", "r/", "S", "S.", "S.", "Ie", "Io", "Dj", "Gj", "E", "Dz", "I", "Yi",
      "J", "Lj", "Nj", "Tsh", "Kj", "I", "U", "Dzh", "A", "B", "V", "G", "D", "E", "Zh", "Z",
      "I", "I", "K", "L", "M", "N", "O", "P", "R", "S", "T", "U", "F", "Kh", "Ts", "Ch", "Sh",
      "Shch", "'", "Y", "'", "E", "Iu", "Ia", "a", "b", "v", "g", "d", "e", "zh", "z", "i", "i",
      "k", "l", "m", "n", "o", "p", "r", "s", "t", "u", "f", "kh", "ts", "ch", "sh", "shch",
      "'", "y", "'", "e", "iu", "ia", "ie", "io", "dj", "gj", "ie", "dz", "i", "yi", "j", "lj",
      "nj", "tsh", "kj", "i", "u", "dzh", "O", "o", "E", "e", "Ie", "ie", "E", "e", "Ie", "ie",
      "O", "o", "Io", "io", "Ks", "ks", "Ps", "ps", "F", "f", "Y", "y", "Y", "y", "u", "u", "O",
      "o", "O", "o", "Ot", "ot", "Q", "q", "*1000*", ".", "", "", "", ".", "*100.000*",
      "*1.000.000*", "Jh", "jh", "\"", "\"", "R'", "r'", "G'", "g'", "G'", "g'", "G'", "g'",
      "Zh'", "zh'", "Z'", "z'", "K'", "k'", "K'", "k'", "K'", "k'", "K'", "k'", "N'", "n'",
      "Ng", "ng", "P'", "p'", "Kh", "kh", "S'", "s'", "T'", "t'", "U", "u", "U'", "u'", "Kh'",
      "kh'", "Tts", "tts", "Ch'", "ch'", "Ch'", "ch'", "H", "h", "Ch", "ch", "Ch'", "ch'", "`",
      "Zh", "zh", "K'", "k'", "Lh", "lh", "N'", "n'", "Nh", "nh", "Ch", "ch", "Mh", "mh", "h",
      "a", "a", "A", "a", "Ae", "ae", "Ie", "ie", "@", "@", "@", "@", "Zh", "zh", "Z", "z",
      "Dz", "dz", "I", "i", "I", "i", "O", "o", "O", "o", "O", "o", "E", "e", "U", "u", "U",
      "u", "U", "u", "Ch", "ch", "Gh", "gh", "Y", "y", "Xh", "xh", "X", "x", "H", "h", "D", "d",
      "Dj", "dj", "Zj", "zj", "Dz", "dz", "Lj", "lj", "Nj", "nj", "Sj", "sj", "Tj", "tj", "A",
      "a", "L", "l", "Lkh", "lkh", "Rkh", "rkh", "A", "a", "Q", "q", "W", "w", "Q", "q", "L",
      "l", "N", "n", "Ph", "ph", "'", "'", "Ny", "ny", "Dzh", "dzh", "Dch", "dch", "L", "l"]),
    (0x05D0, ["'", "b", "g", "d", "h", "v", "z", "kh", "t", "y", "k", "k", "l", "m", "m", "n"]),
    (0x05E2, ["`"]),
    (0x05E8, ["r", "sh", "t"]),
    (0x0620, ["y", "'", "a", "'", "w'", "'", "y'", "", "b", "@", "t", "th", "j", "H", "kh",
      "d"]),
    (0x0631, ["r"]),
    (0x0639, ["`"]),
    (0x0644, ["l", "m"]),
    (0x064A, ["y"]),
    (0x0663, ["3"]),
    (0x07AD, ["ey"]),
    (0x0924, ["t"]),
    (0x0928, ["n"]),
    (0x092E, ["m"]),
    (0x0938, ["s"]),
    (0x0947, ["e"]),
    (0x0967, ["1", "2", "3"]),
    (0x0E17, ["th"]),
    (0x0E22, ["y"]),
    (0x0E44, ["ai"]),
    (0x0F04, ["@"]),
    (0x14C7, ["na"]),
    (0x1515, ["sha"]),
    (0x16A0, ["f"]),
    (0x1E00, ["A", "a", "B", "b", "B", "b", "B", "b", "C", "c", "D", "d", "D", "d", "D", "d"]),
    (0x1E80, ["W", "w", "W", "w", "W", "w", "W", "w", "W", "w", "X", "x", "X", "x", "Y", "y"]),
    (0x1E9E, ["Ss"]),
    (0x1EA0, ["A", "a", "A", "a", "A", "a", "A", "a", "A", "a", "A", "a", "A", "a", "A", "a"]),
    (0x1F00, ["a"]),
    (0x200B, [" "]),
    (0x2010, ["-", "-", "-", "-", "--", "--", "||", "_", "'", "'", ",", "'", "\"", "\"", ",,",
      "\""]),
    (0x2022, ["*"]),
    (0x2026, ["..."]),
    (0x2028, ["\n", "\n\n"]),
    (0x2030, ["%0", "%00", "'", "''", "'''", "`", "``", "```", "^", "<", ">", "*", "!!", "!?",
      "-", "_"]),
    (0x2082, ["2"]),
    (0x20A0, ["ECU", "CL", "Cr", "FF", "L", "mil", "N", "Pts", "Rs", "W", "NS", "D", "EUR", "K",
      "T", "Dr"]),
    (0x20B9, ["Rs"]),
    (0x20BF, ["BTC"]),
    (0x2100, ["a/c", "a/s", "C", "C", "CL", "c/o", "c/u", "E", "g", "F", "g", "H", "H", "H",
      "h", "h"]),
    (0x2116, ["No"]),
    (0x2122, ["tm"]),
    (0x2150, ["1/7", "1/9", "1/10", " 1/3 ", " 2/3 ", " 1/5 ", " 2/5 ", " 3/5 ", " 4/5 ",
      " 1/6 ", " 5/6 ", " 1/8 ", " 3/8 ", " 5/8 ", " 7/8 ", " 1/"]),
    (0x2167, ["VIII"]),
    (0x2173, ["iv"]),
    (0x2190, ["-", "|", "-", "|", "-", "|", "\\", "/", "\\", "/", "-", "-", "~", "~", "-",
      "|"]),
    (0x2212, ["-"]),
    (0x221E, ["inf"]),
    (0x2260, ["="]),
    (0x2460, ["1", "2", "3", "4", "5", "6", "7", "8", "9", "10", "11", "12", "13", "14", "15",
      "16"]),
    (0x2600, ["*", "cloud ", "umbrella ", "snowman ", "comet ", "*", "*", "<", "*", "*", "*",
      "*", "0", "180", "telephone ", "telephone "]),
    (0x2615, ["coffee "]),
    (0x2623, ["biohazard "]),
    (0x2660, ["spades "]),
    (0x2665, ["hearts ", "diamonds "]),
    (0x2764, ["heart"]),
    (0x2813, ["h"]),
    (0x3000, [" "]),
    (0x3041, ["a", "a", "i", "i", "u", "u", "e", "e", "o", "o", "ka", "ga", "ki", "gi", "ku"]),
    (0x3052, ["ge"]),
    (0x307E, ["ma"]),
    (0x3093, ["n"]),
    (0x30A0, ["=", "a", "a", "i", "i", "u", "u", "e", "e", "o", "o", "ka", "ga", "ki", "gi",
      "ku"]),
    (0x30C8, ["to"]),
    (0x30F3, ["n"]),
    (0x3231, ["(Zhu) "]),
    (0x337F, ["Inc."]),
    (0x338F, ["kg"]),
    (0x4E00, ["Yi ", "Ding ", "Kao ", "Qi ", "Shang ", "Xia ", "Han", "Mo ", "Zhang ", "San ",
      "Shang ", "Xia ", "Ji ", "Bu ", "Yu ", "Mian "]),
    (0x4E2D, ["Zhong "]),
    (0x4EB0, ["Jing "]),
    (0x5317, ["Bei "]),
    (0x56FD, ["Guo "]),
    (0x65E5, ["Ri "]),
    (0x672C, ["Ben "]),
    (0x8336, ["Cha "]),
    (0x8A9E, ["Yu "]),
    (0xA9C1, ["<", ">"]),
    (0xAC00, ["ga", "gag", "gagg", "gags", "gan", "ganj", "ganh", "gad", "gal", "galg", "galm",
      "galb", "gals", "galt", "galp", "galh"]),
    (0xAD6D, ["gug"]),
    (0xC11C, ["seo"]),
    (0xC5B4, ["eo"]),
    (0xC6B8, ["ul"]),
    (0xD55C, ["han"]),
    (0xFB00, ["ff", "fi", "fl", "ffi"]),
    (0xFDFA, ["\x7bSalla Llahu Alayhi WaSallam\x7d"]),
    (0xFF01, ["!", "\"", "#", "$", "%", "&", "'", "(", ")", "*", "+", ",", "-", ".", "/"]),
    (0xFF11, ["1", "2", "3"]),
    (0xFF15, ["5"]),
    (0xFF1F, ["?", "@", "A", "B", "C", "D", "E", "F", "G", "H", "I", "J", "K", "L", "M", "N",
      "O"]),
    (0xFF3F, ["_", "`", "a", "b", "c", "d", "e", "f", "g", "h", "i", "j", "k", "l", "m", "n",
      "o"]),
    (0xFF55, ["u"]),
    (0xFFEE, ["O"]),
    (0xFFFD, ["?"]),
    (0x10348, ["hw"]),
    (0x1D400, ["A", "B", "C"]),
    (0x1D4B3, ["X"]),
    (0x1D538, ["A"]),
    (0x1D7D8, ["0"]),
    (0x1F1F8, ["S"]),
    (0x1F1FA, ["U"]),
    (0x1F436, ["dog "]),
    (0x1F44D, ["+1 "]),
    (0x1F467, ["girl ", "man ", "woman "]),
    (0x1F600, ["grinning ", "grin ", "joy ", "smiley ", "smile ", "sweat smile ", "laughing ",
      "innocent ", "smiling imp ", "wink ", "blush ", "yum ", "relieved ", "heart eyes ",
      "sunglasses ", "smirk "]),
    (0x1F680, ["rocket "]),
    (0x1F984, ["unicorn "])
  ]

def spelling (n : Nat) : List (Nat × List String) → String
  | [] => ""
  | (first, run) :: runs =>
    if first ≤ n ∧ n < first + run.length then run.getD (n - first) "" else spelling n runs

def transliterateChar (c : Char) : List Char :=
  if c.toNat < 0x20 ∨ c.toNat = 0x7F then []
  else if c.toNat < 0x7F then [c]
  else (spelling c.toNat spellings).toList

def isPlain (c : Char) : Bool := c.toNat < 0x7F

def transliterate (cs : List Char) : List Char :=
  cs.takeWhile isPlain ++ (cs.dropWhile isPlain).flatMap transliterateChar

theorem transliterate_of_plain {cs : List Char} (h : ∀ c ∈ cs, isPlain c) :
    transliterate cs = cs := by
  have hd : cs.dropWhile isPlain = [] := by
    induction cs with
    | nil => rfl
    | cons c cs ih =>
      rw [List.dropWhile_cons_of_pos (h c List.mem_cons_self)]
      exact ih fun d hd => h d (List.mem_cons_of_mem _ hd)
  have ht := List.takeWhile_append_dropWhile (p := isPlain) (l := cs)
  rw [hd, List.append_nil] at ht
  rw [transliterate, ht, hd, List.flatMap_nil, List.append_nil]

end TokenRegistry.Slug
