namespace Tablature

/-- A document that comes with the program. -/
structure Demo where
  name : String
  content : String

namespace Demo

private def campfireStrumLines : List String :=
  ["\x7b",
    "  \"title\": \"Campfire Strum\",",
    "  \"bpm\": 100,",
    "  \"sections\": [",
    "    \x7b",
    "      \"id\": \"verse\",",
    "      \"title\": \"Verse\",",
    "      \"data\": [",
    "        \x7b",
    "          \"type\": \"chord\",",
    "          \"id\": \"verse-chords\",",
    "          \"bpm\": -1,",
    "          \"repetitions\": 1,",
    "          \"data\": [",
    "            \x7b",
    "              \"id\": \"g-c\",",
    "              \"repetitions\": 2,",
    "              \"bpm\": -1,",
    "              \"strummingPattern\": \x7b",
    "                \"id\": \"down-up\",",
    "                \"noteLength\": \"eighth\",",
    "                \"strums\": [",
    "                  \x7b \"palmMute\": \"\", \"strum\": \"v>\" \x7d,",
    "                  \x7b \"palmMute\": \"\", \"strum\": \"v\" \x7d,",
    "                  \x7b \"palmMute\": \"\", \"strum\": \"^\" \x7d,",
    "                  \x7b \"palmMute\": \"\", \"strum\": \"\" \x7d,",
    "                  \x7b \"palmMute\": \"\", \"strum\": \"^\" \x7d,",
    "                  \x7b \"palmMute\": \"\", \"strum\": \"v\" \x7d,",
    "                  \x7b \"palmMute\": \"\", \"strum\": \"^\" \x7d,",
    "                  \x7b \"palmMute\": \"\", \"strum\": \"\" \x7d",
    "                ]",
    "              \x7d,",
    "              \"data\": [\"G\", \"\", \"\", \"\", \"C\", \"\", \"\", \"\"]",
    "            \x7d",
    "          ]",
    "        \x7d",
    "      ]",
    "    \x7d,",
    "    \x7b",
    "      \"id\": \"chorus\",",
    "      \"title\": \"Chorus\",",
    "      \"data\": [",
    "        \x7b",
    "          \"type\": \"chord\",",
    "          \"id\": \"chorus-chords\",",
    "          \"bpm\": 110,",
    "          \"repetitions\": 2,",
    "          \"data\": [",
    "            \x7b",
    "              \"id\": \"d-em\",",
    "              \"repetitions\": 1,",
    "              \"bpm\": -1,",
    "              \"strummingPattern\": \x7b",
    "                \"id\": \"chug\",",
    "                \"noteLength\": \"sixteenth\",",
    "                \"strums\": [",
    "                  \x7b \"palmMute\": \"start\", \"strum\": \"v\" \x7d,",
    "                  \x7b \"palmMute\": \"-\", \"strum\": \"v\" \x7d,",
    "                  \x7b \"palmMute\": \"-\", \"strum\": \"v\" \x7d,",
    "                  \x7b \"palmMute\": \"end\", \"strum\": \"v\" \x7d",
    "                ]",
    "              \x7d,",
    "              \"data\": [\"D\", \"\", \"Em\", \"\"]",
    "            \x7d",
    "          ]",
    "        \x7d",
    "      ]",
    "    \x7d",
    "  ],",
    "  \"sectionProgression\": [",
    "    \x7b \"id\": \"p1\", \"sectionId\": \"verse\", \"title\": \"Verse\", \"repetitions\": 2 \x7d,",
    "    \x7b \"id\": \"p2\", \"sectionId\": \"chorus\", \"title\": \"Chorus\", \"repetitions\": 1 \x7d,",
    "    \x7b \"id\": \"p3\", \"sectionId\": \"verse\", \"title\": \"Verse\", \"repetitions\": 1 \x7d",
    "  ]",
    "\x7d",
    ""]

def campfireStrum : Demo :=
  ⟨"campfire-strum", "\n".intercalate campfireStrumLines⟩

private def quarterNotesLines : List String :=
  ["\x7b",
    "  \"title\": \"Quarter Notes\",",
    "  \"bpm\": 120,",
    "  \"sections\": [",
    "    \x7b",
    "      \"id\": \"warmup\",",
    "      \"title\": \"Warmup\",",
    "      \"data\": [",
    "        \x7b",
    "          \"type\": \"tab\",",
    "          \"id\": \"open-strings\",",
    "          \"bpm\": -1,",
    "          \"repetitions\": 2,",
    "          \"data\": [",
    "            [\"\", \"\", \"\", \"\", \"\", \"\", \"0\", \"\", \"quarter\", \"c1\"],",
    "            [\"\", \"\", \"\", \"\", \"\", \"0\", \"\", \"\", \"quarter\", \"c2\"],",
    "            [\"\", \"\", \"\", \"\", \"0\", \"\", \"\", \"\", \"quarter\", \"c3\"],",
    "            [\"\", \"\", \"\", \"0\", \"\", \"\", \"\", \"\", \"quarter\", \"c4\"],",
    "            [\"\", \"|\", \"|\", \"|\", \"|\", \"|\", \"|\", \"-1\", \"measureLine\", \"m1\"]",
    "          ]",
    "        \x7d",
    "      ]",
    "    \x7d",
    "  ],",
    "  \"sectionProgression\": [",
    "    \x7b \"id\": \"p1\", \"sectionId\": \"warmup\", \"title\": \"Warmup\", \"repetitions\": 1 \x7d",
    "  ]",
    "\x7d",
    ""]

def quarterNotes : Demo :=
  ⟨"quarter-notes", "\n".intercalate quarterNotesLines⟩

private def tempoChangeLines : List String :=
  ["\x7b",
    "  \"title\": \"Tempo Change Riff\",",
    "  \"bpm\": -1,",
    "  \"sections\": [",
    "    \x7b",
    "      \"id\": \"riff\",",
    "      \"title\": \"Riff\",",
    "      \"data\": [",
    "        \x7b",
    "          \"type\": \"tab\",",
    "          \"id\": \"riff-tab\",",
    "          \"bpm\": 90,",
    "          \"repetitions\": 1,",
    "          \"data\": [",
    "            [\"\", \"\", \"\", \"\", \"\", \"\", \"0\", \"\", \"eighth\", \"c1\"],",
    "            [\"\", \"\", \"\", \"\", \"\", \"\", \"3\", \"\", \"eighth\", \"c2\"],",
    "            [\"\", \"\", \"\", \"\", \"\", \"\", \"5\", \"\", \"quarter\", \"c3\"],",
    "            [\"\", \"|\", \"|\", \"|\", \"|\", \"|\", \"|\", \"140\", \"measureLine\", \"m1\"],",
    "            [\"-\", \"\", \"\", \"\", \"\", \"\", \"0\", \"\", \"sixteenthTriplet\", \"c4\"],",
    "            [\"-\", \"\", \"\", \"\", \"\", \"\", \"0\", \"\", \"sixteenthTriplet\", \"c5\"],",
    "            [\"-\", \"\", \"\", \"\", \"\", \"\", \"0\", \"\", \"sixteenthTriplet\", \"c6\"],",
    "            [\"\", \"\", \"\", \"\", \"\", \"2\", \"\", \"\", \"eighthTriplet\", \"c7\", \"true\"],",
    "            [\"\", \"\", \"\", \"\", \"\", \"3\", \"\", \"\", \"eighthTriplet\", \"c8\"],",
    "            [\"\", \"\", \"\", \"\", \"\", \"5\", \"\", \"\", \"eighthTriplet\", \"c9\"],",
    "            [\"\", \"|\", \"|\", \"|\", \"|\", \"|\", \"|\", \"-1\", \"measureLine\", \"m2\"],",
    "            [\"\", \"\", \"\", \"\", \"\", \"\", \"0\", \"h\", \"quarterTriplet\", \"c10\"],",
    "            [\"\", \"\", \"\", \"\", \"\", \"\", \"3\", \"\", \"quarterTriplet\", \"c11\"],",
    "            [\"\", \"\", \"\", \"\", \"\", \"\", \"5\", \"\", \"quarterTriplet\", \"c12\"]",
    "          ]",
    "        \x7d",
    "      ]",
    "    \x7d",
    "  ],",
    "  \"sectionProgression\": []",
    "\x7d",
    ""]

def tempoChange : Demo :=
  ⟨"tempo-change", "\n".intercalate tempoChangeLines⟩

/-- All demos, by name. -/
def all : List Demo :=
  [campfireStrum, quarterNotes, tempoChange]

def find? (name : String) : Option Demo :=
  all.find? fun demo => demo.name == name

end Demo

end Tablature
