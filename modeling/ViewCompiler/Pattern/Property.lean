/-!
# Names of character properties

The names by which a search pattern may refer to sets of characters: general categories, scripts,
binary properties, and the values of the properties that take one. Case, blanks, hyphens,
underscores and a leading `is` do not matter in such a name.

* `Pattern.isPropertyName`: a name that stands alone.
* `Pattern.isPropertyValue`: a property and a value of it.
-/

namespace ViewCompiler

namespace Pattern

/-- The general categories. -/
def categories : List String :=
  ["c", "other", "cc", "control", "cntrl", "cf", "format", "cn", "unassigned", "co",
    "privateuse", "l", "letter", "lc", "casedletter", "ll", "lowercaseletter", "lm",
    "modifierletter", "lo", "otherletter", "lt", "titlecaseletter", "lu", "uppercaseletter", "m",
    "mark", "combiningmark", "mc", "spacingmark", "me", "enclosingmark", "mn", "nonspacingmark",
    "n", "number", "nd", "decimalnumber", "digit", "nl", "letternumber", "no", "othernumber",
    "p", "punctuation", "punct", "pc", "connectorpunctuation", "pd", "dashpunctuation", "pe",
    "closepunctuation", "pf", "finalpunctuation", "pi", "initialpunctuation", "po",
    "otherpunctuation", "ps", "openpunctuation", "s", "symbol", "sc", "currencysymbol", "sk",
    "modifiersymbol", "sm", "mathsymbol", "so", "othersymbol", "z", "separator", "zl",
    "lineseparator", "zp", "paragraphseparator", "zs", "spaceseparator", "any", "assigned",
    "ascii"]

/-- The scripts. -/
def scripts : List String :=
  ["adlm", "adlam", "aghb", "caucasianalbanian", "ahom", "arab", "arabic", "armi",
    "imperialaramaic", "armn", "armenian", "avst", "avestan", "bali", "balinese", "bamu",
    "bamum", "bass", "bassavah", "batk", "batak", "beng", "bengali", "bhks", "bhaiksuki", "bopo",
    "bopomofo", "brah", "brahmi", "brai", "braille", "bugi", "buginese", "buhd", "buhid", "cakm",
    "chakma", "cans", "canadianaboriginal", "cari", "carian", "cham", "cher", "cherokee", "chrs",
    "chorasmian", "copt", "coptic", "qaac", "cpmn", "cyprominoan", "cprt", "cypriot", "cyrl",
    "cyrillic", "deva", "devanagari", "diak", "divesakuru", "dogr", "dogra", "dsrt", "deseret",
    "dupl", "duployan", "egyp", "egyptianhieroglyphs", "elba", "elbasan", "elym", "elymaic",
    "ethi", "ethiopic", "geor", "georgian", "glag", "glagolitic", "gong", "gunjalagondi", "gonm",
    "masaramgondi", "goth", "gothic", "gran", "grantha", "grek", "greek", "gujr", "gujarati",
    "guru", "gurmukhi", "hang", "hangul", "hani", "han", "hano", "hanunoo", "hatr", "hatran",
    "hebr", "hebrew", "hira", "hiragana", "hluw", "anatolianhieroglyphs", "hmng", "pahawhhmong",
    "hmnp", "nyiakengpuachuehmong", "hung", "oldhungarian", "ital", "olditalic", "java",
    "javanese", "kali", "kayahli", "kana", "katakana", "kawi", "khar", "kharoshthi", "khmr",
    "khmer", "khoj", "khojki", "kits", "khitansmallscript", "knda", "kannada", "kthi", "kaithi",
    "lana", "taitham", "laoo", "lao", "latn", "latin", "lepc", "lepcha", "limb", "limbu", "lina",
    "lineara", "linb", "linearb", "lisu", "lyci", "lycian", "lydi", "lydian", "mahj", "mahajani",
    "maka", "makasar", "mand", "mandaic", "mani", "manichaean", "marc", "marchen", "medf",
    "medefaidrin", "mend", "mendekikakui", "merc", "meroiticcursive", "mero",
    "meroitichieroglyphs", "mlym", "malayalam", "modi", "mong", "mongolian", "mroo", "mro",
    "mtei", "meeteimayek", "mult", "multani", "mymr", "myanmar", "nagm", "nagmundari", "nand",
    "nandinagari", "narb", "oldnortharabian", "nbat", "nabataean", "newa", "nkoo", "nko", "nshu",
    "nushu", "ogam", "ogham", "olck", "olchiki", "orkh", "oldturkic", "orya", "oriya", "osge",
    "osage", "osma", "osmanya", "ougr", "olduyghur", "palm", "palmyrene", "pauc", "paucinhau",
    "perm", "oldpermic", "phag", "phagspa", "phli", "inscriptionalpahlavi", "phlp",
    "psalterpahlavi", "phnx", "phoenician", "plrd", "miao", "prti", "inscriptionalparthian",
    "rjng", "rejang", "rohg", "hanifirohingya", "runr", "runic", "samr", "samaritan", "sarb",
    "oldsoutharabian", "saur", "saurashtra", "sgnw", "signwriting", "shaw", "shavian", "shrd",
    "sharada", "sidd", "siddham", "sind", "khudawadi", "sinh", "sinhala", "sogd", "sogdian",
    "sogo", "oldsogdian", "sora", "sorasompeng", "soyo", "soyombo", "sund", "sundanese", "sylo",
    "sylotinagri", "syrc", "syriac", "tagb", "tagbanwa", "takr", "takri", "tale", "taile",
    "talu", "newtailue", "taml", "tamil", "tang", "tangut", "tavt", "taiviet", "telu", "telugu",
    "tfng", "tifinagh", "tglg", "tagalog", "thaa", "thaana", "thai", "tibt", "tibetan", "tirh",
    "tirhuta", "tnsa", "tangsa", "toto", "ugar", "ugaritic", "vaii", "vai", "vith", "vithkuqi",
    "wara", "warangciti", "wcho", "wancho", "xpeo", "oldpersian", "xsux", "cuneiform", "yezi",
    "yezidi", "yiii", "yi", "zanb", "zanabazarsquare", "zinh", "inherited", "qaai", "zyyy",
    "common", "garay", "gara", "gurungkhema", "gukh", "kiratrai", "krai", "olonal", "onao",
    "sunuwar", "sunu", "todhri", "todr", "tulutigalari", "tutg"]

/-- The binary properties. -/
def binaryProperties : List String :=
  ["alphabetic", "alpha", "asciihexdigit", "ahex", "bidicontrol", "bidic", "bidimirrored",
    "bidim", "caseignorable", "ci", "cased", "changeswhencasefolded", "cwcf",
    "changeswhencasemapped", "cwcm", "changeswhenlowercased", "cwl", "changeswhennfkccasefolded",
    "cwkcf", "changeswhentitlecased", "cwt", "changeswhenuppercased", "cwu", "dash",
    "defaultignorablecodepoint", "di", "deprecated", "dep", "diacritic", "dia", "emoji",
    "emojicomponent", "ecomp", "emojimodifier", "emod", "emojimodifierbase", "ebase",
    "emojipresentation", "epres", "extendedpictographic", "extpict", "extender", "ext",
    "graphemebase", "grbase", "graphemeextend", "grext", "graphemelink", "hexdigit", "hex",
    "hyphen", "idsbinaryoperator", "idsb", "idstrinaryoperator", "idst", "idcontinue", "idc",
    "idstart", "ids", "ideographic", "ideo", "joincontrol", "joinc", "logicalorderexception",
    "loe", "lowercase", "lower", "math", "noncharactercodepoint", "nchar", "otheralphabetic",
    "otherdefaultignorablecodepoint", "othergraphemeextend", "otheridcontinue", "otheridstart",
    "otherlowercase", "othermath", "otheruppercase", "patternsyntax", "patsyn",
    "patternwhitespace", "patws", "prependedconcatenationmark", "pcm", "quotationmark", "qmark",
    "radical", "regionalindicator", "ri", "sentenceterminal", "sterm", "softdotted", "sd",
    "terminalpunctuation", "term", "unifiedideograph", "uideo", "uppercase", "upper",
    "variationselector", "vs", "whitespace", "wspace", "space", "xidcontinue", "xidc",
    "xidstart", "xids", "oalpha", "odi", "ogrext", "oidc", "oids", "olower", "omath", "oupper",
    "grlink"]

/-- The versions in which characters were added. -/
def ages : List String :=
  ["1.1", "2.0", "2.1", "3.0", "3.1", "3.2", "4.0", "4.1", "5.0", "5.1", "5.2", "6.0", "6.1",
    "6.2", "6.3", "7.0", "8.0", "9.0", "10.0", "11.0", "12.0", "12.1", "13.0", "14.0", "15.0",
    "15.1", "16.0", "v11", "v20", "v21", "v30", "v31", "v32", "v40", "v41", "v50", "v51", "v52",
    "v60", "v61", "v62", "v63", "v70", "v80", "v90", "v100", "v110", "v120", "v121", "v130",
    "v140", "v150", "v151", "v160"]

/-- The values of the grapheme break property. -/
def graphemeBreaks : List String :=
  ["cn", "control", "cr", "ex", "extend", "l", "lf", "lv", "lvt", "pp", "prepend", "ri",
    "regionalindicator", "sm", "spacingmark", "t", "v", "zwj"]

/-- The values of the word break property. -/
def wordBreaks : List String :=
  ["cr", "dq", "doublequote", "ex", "extendnumlet", "extend", "fo", "format", "hl",
    "hebrewletter", "ka", "katakana", "le", "aletter", "lf", "mb", "midnumlet", "ml",
    "midletter", "mn", "midnum", "nl", "newline", "nu", "numeric", "ri", "regionalindicator",
    "sq", "singlequote", "wsegspace", "zwj"]

/-- The values of the sentence break property. -/
def sentenceBreaks : List String :=
  ["at", "aterm", "cl", "close", "cr", "ex", "extend", "fo", "format", "le", "oletter", "lf",
    "lo", "lower", "nu", "numeric", "sc", "scontinue", "se", "sep", "sp", "st", "sterm", "up",
    "upper"]

/-- The characters of a name that matter, in small letters. -/
def significant (cs : List Char) : List Char :=
  (cs.filter fun c => c ≠ ' ' && c ≠ '_' && c ≠ '-' && c.toNat < 128).map fun c =>
    if 'A' ≤ c && c ≤ 'Z' then Char.ofNat (c.toNat + 32) else c

/-- The name in the form in which it is looked up. -/
def normalName (cs : List Char) : String :=
  match cs with
  | i :: s :: rest =>
    if (i = 'i' || i = 'I') && (s = 's' || s = 'S') then
      let rest := significant rest
      if rest = ['c'] then "isc" else String.ofList rest
    else String.ofList (significant cs)
  | _ => String.ofList (significant cs)

/-- Does the name stand for a set of characters? -/
def isPropertyName (cs : List Char) : Bool :=
  let name := normalName cs
  categories.contains name || scripts.contains name ||
    (name ≠ "cf" && name ≠ "sc" && name ≠ "lc" && binaryProperties.contains name)

/-- Does the letter stand for a general category? -/
def isCategoryLetter (c : Char) : Bool := categories.contains (normalName [c])

/-- Is the value one of the property's? -/
def isPropertyValue (property value : List Char) : Bool :=
  let name := normalName property
  let value := normalName value
  if name = "gc" || name = "generalcategory" then categories.contains value
  else if name = "sc" || name = "script" || name = "scx" || name = "scriptextensions" then
    scripts.contains value
  else if name = "age" then ages.contains value
  else if name = "gcb" || name = "graphemeclusterbreak" then graphemeBreaks.contains value
  else if name = "wb" || name = "wordbreak" then wordBreaks.contains value
  else if name = "sb" || name = "sentencebreak" then sentenceBreaks.contains value
  else false

end Pattern

end ViewCompiler
